import SentryCocoa.UIEventTracker

/-! Runs of the tracker of user interactions. As long as no event names the last transaction once
it is finished, and none leaves it with an idle timeout, the others wait without a timeout. -/
namespace SentryCocoa.Tracer
open SentryCocoa.Foundation SentryCocoa.Session SentryCocoa.Library.Machine

namespace SentryTracer
variable (moment : Moment)

/-- What finishing leaves to the transaction that the tracer is part of. -/
structure FinishFrame (tracer tracer' : SentryTracer) : Prop where
  finished : tracer'.isFinished = true
  configuration : tracer'.configuration = tracer.configuration
  wasFinishCalled : tracer'.wasFinishCalled = tracer.wasFinishCalled
  finishCallback : tracer'.finishCallback = false

theorem finishSelf_frame (tracer : SentryTracer) :
    FinishFrame tracer (tracer.finishSelf moment (canBeFinished moment) true) := by
  unfold finishSelf spanFinished
  cases moment.appStartMeasurement with
  | none => exact ⟨rfl, rfl, rfl, rfl⟩
  | some measurement => exact ⟨rfl, rfl, rfl, rfl⟩

theorem finishChildren_frame (status : SentrySpanStatus) {tracer : SentryTracer}
    (finished : tracer.isFinished = true) :
    ∃ span children, tracer.finishChildren moment (canBeFinished moment) status =
      { tracer with span := span, children := children } ∧ span.isFinished = true := by
  unfold finishChildren
  rw [foldl_finishUnfinishedChild moment (canBeFinished_quiet moment) status _ finished]
  dsimp only
  split
  · exact ⟨_, _, rfl, finished⟩
  · exact ⟨_, _, rfl, finished⟩

theorem finishTracer_frame (status : SentrySpanStatus) {tracer : SentryTracer}
    (running : tracer.isFinished = false) :
    FinishFrame tracer (tracer.finishTracer moment (canBeFinished moment) status true).1 := by
  have hself := finishSelf_frame moment tracer
  unfold finishTracer
  rw [if_neg (by rw [running]; decide)]
  generalize tracer.finishSelf moment (canBeFinished moment) true = self at hself
  have hscope : FinishFrame tracer { self with isSpanOfScope := false } :=
    ⟨hself.finished, hself.configuration, hself.wasFinishCalled, hself.finishCallback⟩
  obtain ⟨span, children, hchildren, hspan⟩ :=
    finishChildren_frame moment status hscope.finished
  have hended : FinishFrame tracer
      { self with
        span := span
        children := children
        isSpanOfScope := false } :=
    ⟨hspan, hself.configuration, hself.wasFinishCalled, hself.finishCallback⟩
  dsimp only
  rw [if_pos rfl, hchildren]
  split_ifs <;> assumption

theorem finishInternal_frame {tracer : SentryTracer} (running : tracer.isFinished = false) :
    FinishFrame tracer (tracer.finishInternal moment (canBeFinished moment)) := by
  have hframe := finishTracer_frame moment .deadlineExceeded running
  have hcapture : ∀ capture, FinishFrame tracer ((tracer.finishTracer moment
      (canBeFinished moment) .deadlineExceeded true).1.captureWith moment capture) := fun _ =>
    ⟨hframe.finished, hframe.configuration, hframe.wasFinishCalled, hframe.finishCallback⟩
  unfold finishInternal
  dsimp only
  split
  · exact hframe
  · split
    · exact hcapture .captureTransactionWithProfile
    · exact hcapture .captureTransaction

theorem finishInternal_finished {tracer : SentryTracer} (finished : tracer.isFinished = true) :
    tracer.finishInternal moment (canBeFinished moment) = tracer := by
  unfold finishInternal finishTracer
  rw [if_pos finished]
  rfl

theorem exists_of_hasUnfinished {tracer : SentryTracer}
    (h : tracer.hasUnfinishedChildSpansToWaitFor moment = true) :
    ∃ span ∈ tracer.children, span.isFinished = false := by
  unfold hasUnfinishedChildSpansToWaitFor at h
  obtain ⟨-, hany⟩ := Bool.and_eq_true_iff.mp h
  obtain ⟨span, hspan, hopen⟩ := List.any_eq_true.mp hany
  exact ⟨span, hspan, by simpa using (Bool.and_eq_true_iff.mp hopen).2⟩

theorem finished_of_not_hasUnfinished {tracer : SentryTracer}
    (waits : tracer.configuration.waitForChildren = true)
    (all : moment.shouldIgnoreWaitForChildrenCallback = fun _ => false)
    (h : tracer.hasUnfinishedChildSpansToWaitFor moment = false) :
    ∀ span ∈ tracer.children, span.isFinished = true := by
  intro span hspan
  unfold hasUnfinishedChildSpansToWaitFor at h
  rw [waits, Bool.true_and, List.any_eq_false, all] at h
  simpa using h span hspan

/-- Starting a child changes the children, if anything. -/
theorem startChildWithOperation_children (activeSpan : Option Nat) (operation : String)
    (description : Option String) (tracer : SentryTracer) : ∃ children,
    (tracer.startChildWithOperation moment activeSpan operation description).1 =
      { tracer with children := children } := by
  obtain ⟨parentId, heq⟩ :=
    startChildWithOperation_eq moment tracer activeSpan operation description
  rw [heq]
  unfold startChildWithParentId
  split
  · exact ⟨tracer.children, rfl⟩
  · exact ⟨_, rfl⟩

end SentryTracer

namespace UIEventTransaction

/-- A transaction that only waits for its children has no idle timeout left. -/
structure Inv (transaction : UIEventTransaction) : Prop where
  waitForChildren : transaction.tracer.configuration.waitForChildren = true
  noTimeout : transaction.tracer.isFinished = false →
    transaction.tracer.wasFinishCalled = true → transaction.idleTimeoutBlock = false
  finishCallback : transaction.tracer.isFinished = false →
    transaction.tracer.finishCallback = true

/-- What every function does to a transaction. -/
structure Evolves (transaction transaction' : UIEventTransaction) : Prop where
  inv : transaction.Inv → transaction'.Inv
  stays : transaction.tracer.isFinished = true → transaction'.tracer.isFinished = true ∧
    transaction'.tracer.finishCallback = transaction.tracer.finishCallback
  callsBack : transaction.tracer.isFinished = false → transaction'.tracer.isFinished = true →
    transaction'.tracer.finishCallback = false
  wasFinishCalled : transaction.tracer.wasFinishCalled = true →
    transaction'.tracer.wasFinishCalled = true
  dispatched : transaction.tracer.wasFinishCalled = true →
    transaction'.dispatched = transaction.dispatched

theorem Evolves.refl (transaction : UIEventTransaction) : Evolves transaction transaction := by
  refine ⟨id, fun finished => ⟨finished, rfl⟩, fun running finished => ?_, id, fun _ => rfl⟩
  rw [running] at finished
  cases finished

theorem Evolves.trans {first second third : UIEventTransaction} (h : Evolves first second)
    (h' : Evolves second third) : Evolves first third := by
  refine ⟨fun inv => h'.inv (h.inv inv), fun finished => ?_, fun running finished => ?_,
    fun called => h'.wasFinishCalled (h.wasFinishCalled called), fun called => ?_⟩
  · obtain ⟨hfinished, hcallback⟩ := h.stays finished
    obtain ⟨hfinished', hcallback'⟩ := h'.stays hfinished
    exact ⟨hfinished', hcallback'.trans hcallback⟩
  · cases hsecond : second.tracer.isFinished with
    | true => exact (h'.stays hsecond).2.trans (h.callsBack running hsecond)
    | false => exact h'.callsBack hsecond finished
  · exact (h'.dispatched (h.wasFinishCalled called)).trans (h.dispatched called)

/-- An update that finishes nothing and dispatches no idle timeout. -/
theorem Evolves.of_frame {transaction transaction' : UIEventTransaction}
    (isFinished : transaction'.tracer.isFinished = transaction.tracer.isFinished)
    (configuration : transaction'.tracer.configuration = transaction.tracer.configuration)
    (wasFinishCalled : transaction'.tracer.wasFinishCalled = transaction.tracer.wasFinishCalled)
    (finishCallback : transaction'.tracer.finishCallback = transaction.tracer.finishCallback)
    (idleTimeoutBlock : transaction.idleTimeoutBlock = false →
      transaction'.idleTimeoutBlock = false)
    (dispatched : transaction'.dispatched = transaction.dispatched) :
    Evolves transaction transaction' := by
  refine ⟨fun inv => ⟨?_, fun running called => ?_, fun running => ?_⟩,
    fun finished => ⟨isFinished.trans finished, finishCallback⟩, fun running finished => ?_,
    wasFinishCalled.trans, fun _ => dispatched⟩
  · rw [configuration]
    exact inv.waitForChildren
  · exact idleTimeoutBlock
      (inv.noTimeout (isFinished.symm.trans running) (wasFinishCalled.symm.trans called))
  · exact finishCallback.trans (inv.finishCallback (isFinished.symm.trans running))
  · rw [isFinished, running] at finished
    cases finished

/-- Finishing, from a tracer that differs in nothing that counts. -/
theorem Evolves.of_finished {transaction transaction' : UIEventTransaction}
    {tracer : SentryTracer} (running : transaction.tracer.isFinished = false)
    (frame : SentryTracer.FinishFrame tracer transaction'.tracer)
    (configuration : tracer.configuration = transaction.tracer.configuration)
    (wasFinishCalled : transaction.tracer.wasFinishCalled = true → tracer.wasFinishCalled = true)
    (dispatched : transaction'.dispatched = transaction.dispatched) :
    Evolves transaction transaction' := by
  refine ⟨fun inv => ⟨?_, fun running => ?_, fun running => ?_⟩, fun finished => ?_,
    fun _ _ => frame.finishCallback,
    fun called => frame.wasFinishCalled.trans (wasFinishCalled called), fun _ => dispatched⟩
  · rw [frame.configuration, configuration]
    exact inv.waitForChildren
  · rw [frame.finished] at running
    cases running
  · rw [frame.finished] at running
    cases running
  · rw [running] at finished
    cases finished

section Functions
variable (moment : Moment)

theorem finishInternal_evolves (transaction : UIEventTransaction) :
    Evolves transaction (transaction.finishInternal moment) := by
  unfold finishInternal
  cases hfinished : transaction.tracer.isFinished with
  | true =>
    rw [SentryTracer.finishInternal_finished moment hfinished]
    exact .refl transaction
  | false =>
    exact .of_finished hfinished (SentryTracer.finishInternal_frame moment hfinished) rfl id rfl

theorem cancelBlock_evolves (transaction : UIEventTransaction) :
    Evolves transaction { transaction with idleTimeoutBlock := false } :=
  .of_frame rfl rfl rfl rfl (fun _ => rfl) rfl

theorem idleTimeout_evolves (transaction : UIEventTransaction) :
    Evolves transaction (transaction.idleTimeout moment) :=
  (cancelBlock_evolves transaction).trans (finishInternal_evolves moment _)

/-- Without finish called, an idle timeout may be dispatched. -/
theorem dispatchIdleTimeout_evolves {transaction : UIEventTransaction}
    (notCalled : transaction.tracer.wasFinishCalled = false) :
    Evolves transaction (transaction.dispatchIdleTimeout moment) := by
  unfold dispatchIdleTimeout
  split
  · refine ⟨fun inv => ⟨inv.waitForChildren, fun _ called => ?_, inv.finishCallback⟩,
      fun finished => ⟨finished, rfl⟩, fun running finished => ?_, id, fun called => ?_⟩
    · rw [notCalled] at called
      cases called
    · rw [running] at finished
      cases finished
    · rw [notCalled] at called
      cases called
  · exact (cancelBlock_evolves transaction).trans (finishInternal_evolves moment _)

theorem canBeFinished_evolves (transaction : UIEventTransaction) :
    Evolves transaction (transaction.canBeFinished moment) := by
  unfold canBeFinished
  dsimp only
  split_ifs with hfinished hidle hwait
  · exact .refl transaction
  · exact dispatchIdleTimeout_evolves moment (by simpa using hidle.1)
  · exact .refl transaction
  · exact finishInternal_evolves moment transaction

theorem finishChildWithStatus_evolves (child : Nat) (status : SentrySpanStatus)
    (transaction : UIEventTransaction) :
    Evolves transaction (transaction.finishChildWithStatus moment child status) := by
  apply Evolves.trans _ (canBeFinished_evolves moment _)
  exact .of_frame rfl rfl rfl rfl id rfl

theorem startChildWithOperation_evolves (activeSpan : Option Nat) (operation : String)
    (description : Option String) (transaction : UIEventTransaction) :
    Evolves transaction
      (transaction.startChildWithOperation moment activeSpan operation description) := by
  have hcancel : Evolves transaction transaction.cancelIdleTimeout := by
    unfold cancelIdleTimeout
    split
    · exact cancelBlock_evolves transaction
    · exact .refl transaction
  obtain ⟨children, hchildren⟩ := SentryTracer.startChildWithOperation_children moment activeSpan
    operation description transaction.cancelIdleTimeout.tracer
  apply hcancel.trans
  unfold startChildWithOperation
  dsimp only
  rw [hchildren]
  exact .of_frame rfl rfl rfl rfl id rfl

theorem deadlineTimerFired_evolves (transaction : UIEventTransaction) :
    Evolves transaction (transaction.deadlineTimerFired moment) := by
  have hloop : ∀ (children : List Nat) (first : UIEventTransaction), Evolves first
      (children.foldl (finishUnlessFinished moment .deadlineExceeded) first) := by
    intro children
    induction children with
    | nil => exact .refl
    | cons child children ih =>
      intro first
      apply Evolves.trans _ (ih _)
      unfold finishUnlessFinished
      split
      · exact .refl first
      · exact finishChildWithStatus_evolves moment child .deadlineExceeded first
  unfold deadlineTimerFired
  split
  · exact .refl transaction
  · apply (hloop _ transaction).trans
    refine Evolves.trans (Evolves.of_frame ?_ ?_ ?_ ?_ ?_ ?_) (finishInternal_evolves moment _)
    all_goals first | exact id | rfl

/-- The call of finish must not leave an idle timeout to a transaction that has to wait. -/
theorem finish_evolves {transaction : UIEventTransaction}
    (noTimeout : transaction.idleTimeoutBlock = true →
      ∀ span ∈ transaction.tracer.children, span.isFinished = true) :
    Evolves transaction (transaction.finish moment) := by
  cases hfinished : transaction.tracer.isFinished with
  | true =>
    have hcalled : Evolves transaction
        { transaction with tracer.wasFinishCalled := true, tracer.finishStatus := .ok } := by
      refine ⟨fun inv => ⟨inv.waitForChildren, fun running => ?_, inv.finishCallback⟩,
        fun finished => ⟨finished, rfl⟩, fun running => ?_, fun _ => rfl, fun _ => rfl⟩
      · cases hfinished.symm.trans running
      · cases hfinished.symm.trans running
    exact hcalled.trans (canBeFinished_evolves moment _)
  | false =>
    unfold finish canBeFinished
    dsimp only
    split_ifs with hrunning hidle hwait
    · cases hfinished.symm.trans hrunning
    · simp at hidle
    · have hblock : transaction.idleTimeoutBlock = false := by
        cases hblock : transaction.idleTimeoutBlock with
        | false => rfl
        | true =>
          obtain ⟨span, hspan, hopen⟩ := SentryTracer.exists_of_hasUnfinished moment
            (hwait.resolve_left (by simp))
          cases (noTimeout hblock span hspan).symm.trans hopen
      refine ⟨fun inv => ⟨inv.waitForChildren, fun _ _ => hblock, inv.finishCallback⟩,
        fun finished => ⟨finished, rfl⟩, fun running finished => ?_, fun _ => rfl, fun _ => rfl⟩
      cases running.symm.trans finished
    · exact .of_finished hfinished (SentryTracer.finishInternal_frame moment hfinished) rfl
        (fun _ => rfl) rfl

/-- When finish has been called the transaction ends with its last child. -/
theorem canBeFinished_ends (transaction : UIEventTransaction)
    (waits : transaction.tracer.configuration.waitForChildren = true)
    (all : moment.shouldIgnoreWaitForChildrenCallback = fun _ => false)
    (running : transaction.tracer.isFinished = false)
    (finished : (transaction.canBeFinished moment).tracer.isFinished = true)
    (called : (transaction.canBeFinished moment).tracer.wasFinishCalled = true) :
    ∀ span ∈ transaction.tracer.children, span.isFinished = true := by
  unfold canBeFinished dispatchIdleTimeout at finished called
  dsimp only at finished called
  rw [if_neg (by rw [running]; decide)] at finished called
  split_ifs at finished called with hidle hblock hwait
  · cases running.symm.trans finished
  · have hframe := SentryTracer.finishInternal_frame moment running
    exact absurd (hframe.wasFinishCalled.symm.trans called) hidle.1
  · cases running.symm.trans finished
  · rw [not_or] at hwait
    exact SentryTracer.finished_of_not_hasUnfinished moment waits all (by simpa using hwait.2)

theorem finish_ends {transaction : UIEventTransaction}
    (waits : transaction.tracer.configuration.waitForChildren = true)
    (all : moment.shouldIgnoreWaitForChildrenCallback = fun _ => false)
    (running : transaction.tracer.isFinished = false)
    (finished : (transaction.finish moment).tracer.isFinished = true) :
    ∀ span ∈ transaction.tracer.children, span.isFinished = true := by
  have hcalled := (canBeFinished_evolves moment
    { transaction with tracer.wasFinishCalled := true, tracer.finishStatus := .ok }).wasFinishCalled
    rfl
  exact canBeFinished_ends moment
    { transaction with tracer.wasFinishCalled := true, tracer.finishStatus := .ok } waits all
    running finished hcalled

theorem finishChildWithStatus_ends {transaction : UIEventTransaction} (child : Nat)
    (status : SentrySpanStatus)
    (waits : transaction.tracer.configuration.waitForChildren = true)
    (all : moment.shouldIgnoreWaitForChildrenCallback = fun _ => false)
    (running : transaction.tracer.isFinished = false)
    (finished : (transaction.finishChildWithStatus moment child status).tracer.isFinished = true)
    (called : (transaction.finishChildWithStatus moment child status).tracer.wasFinishCalled =
      true) :
    ∀ other span, transaction.tracer.children[other]? = some span → span.isFinished = false →
      other = child := by
  intro other span hspan hopen
  by_contra hother
  have hends := canBeFinished_ends moment
    { transaction with
      tracer.children := transaction.tracer.children.modify child fun span =>
        span.finishWithStatus status (moment.dates child) } waits all running finished called
  have hsame : (transaction.tracer.children.modify child fun span =>
      span.finishWithStatus status (moment.dates child))[other]? = some span := by
    rw [List.getElem?_modify_ne _ _ (Ne.symm hother)]
    exact hspan
  cases hopen.symm.trans (hends span (List.mem_of_getElem? hsame))

/-- A transaction that has just started. -/
structure Started (name : String) (transaction : UIEventTransaction) : Prop where
  name : transaction.name = name
  running : transaction.tracer.isFinished = false
  notCalled : transaction.tracer.wasFinishCalled = false
  children : transaction.tracer.children = []
  inv : transaction.Inv

theorem startTransaction_started (name operation : String) (idleTimeout : ℚ)
    (isProfiling bindToScope : Bool) (blocks : moment.createDispatchBlock = true) :
    Started name
      (startTransaction moment name operation idleTimeout isProfiling bindToScope) := by
  unfold startTransaction SentryTracer.initWithTransactionContext SentryTracer.dispatchIdleTimeout
  dsimp only
  rw [if_pos blocks]
  split
  · exact ⟨rfl, rfl, rfl, rfl, ⟨rfl, fun _ called => (by cases called), fun _ => rfl⟩⟩
  · exact ⟨rfl, rfl, rfl, rfl, ⟨rfl, fun _ called => (by cases called), fun _ => rfl⟩⟩

end Functions

end UIEventTransaction

namespace SentryUIEventTrackerTransactionMode

/-- The active transactions are open, and each of them is sound. -/
structure Inv (tracker : SentryUIEventTrackerTransactionMode) : Prop where
  transactions : ∀ (position : Nat) (transaction : UIEventTransaction),
    tracker.transactions[position]? = some transaction → transaction.Inv
  active : ∀ position ∈ tracker.activeTransactions, ∃ transaction : UIEventTransaction,
    tracker.transactions[position]? = some transaction ∧ transaction.tracer.isFinished = false

/-- What a step must not do to the transactions that there are: it dispatches no idle timeout
for one on which finish has been called, and ends such a one only at its deadline or with its
last child. -/
structure WaitsForChildren (tracker : SentryUIEventTrackerTransactionMode) (event : Event)
    (tracker' : SentryUIEventTrackerTransactionMode) : Prop where
  noTimeout : ∀ (position : Nat) (transaction transaction' : UIEventTransaction),
    tracker.transactions[position]? = some transaction →
    tracker'.transactions[position]? = some transaction' →
    transaction.tracer.wasFinishCalled = true → transaction'.dispatched = transaction.dispatched
  ends : ∀ (position : Nat) (transaction transaction' : UIEventTransaction),
    tracker.transactions[position]? = some transaction →
    tracker'.transactions[position]? = some transaction' →
    transaction.tracer.isFinished = false → transaction'.tracer.isFinished = true →
    transaction'.tracer.wasFinishCalled = true → event = .deadlineTimer position ∨
      ∀ child span, transaction.tracer.children[child]? = some span → span.isFinished = false →
        ∃ status, event = .finishChild position child status

/-- The idle timeout of an open transaction of the action starts again. -/
def RestartsIdleTimeout (tracker : SentryUIEventTrackerTransactionMode) (action : String)
    (tracker' : SentryUIEventTrackerTransactionMode) : Prop :=
  ∃ (position : Nat) (transaction : UIEventTransaction),
    tracker.transactions[position]? = some transaction ∧
    transaction.name = action ∧ transaction.tracer.isFinished = false ∧
    transaction.tracer.wasFinishCalled = false ∧
    tracker'.transactions[position]? = some { transaction with
      idleTimeoutBlock := true
      dispatched := transaction.dispatched + 1 }

def StartsTransaction (tracker : SentryUIEventTrackerTransactionMode) (action : String)
    (tracker' : SentryUIEventTrackerTransactionMode) : Prop :=
  ∃ transaction : UIEventTransaction,
    tracker'.transactions[tracker.transactions.length]? = some transaction ∧
    transaction.name = action ∧ transaction.tracer.isFinished = false ∧
    transaction.tracer.wasFinishCalled = false ∧ transaction.tracer.children = []

/-- What holds of a step, whatever it leads to. -/
structure Kept (tracker : SentryUIEventTrackerTransactionMode) (input : Event × Moment) : Prop where
  waits : ∀ tracker', tracker.step input = some tracker' →
    WaitsForChildren tracker input.1 tracker'
  handled : ∀ action operation isProfiling bindToScope,
    input.1 = .handleUIEvent action operation isProfiling bindToScope →
      ∀ tracker', tracker.step input = some tracker' →
        RestartsIdleTimeout tracker action tracker' ∨ StartsTransaction tracker action tracker'

/-- An event finds blocks for its idle timeouts. The last active transaction is not finished when
the event is of its action, and else has no idle timeout that could run before its children. -/
def LastIsFree (tracker : SentryUIEventTrackerTransactionMode) (input : Event × Moment) : Prop :=
  match input.1 with
  | .handleUIEvent action _ _ _ => input.2.createDispatchBlock = true ∧
    ∀ (current : Nat) (transaction : UIEventTransaction), tracker.lastObject = some current →
      tracker.transactions[current]? = some transaction →
      if transaction.name = action then transaction.tracer.wasFinishCalled = false
      else transaction.idleTimeoutBlock = true →
        ∀ span ∈ transaction.tracer.children, span.isFinished = true
  | _ => True

theorem Inv.update {tracker : SentryUIEventTrackerTransactionMode} (inv : Inv tracker)
    {position : Nat} {transaction : UIEventTransaction}
    (htransaction : tracker.transactions[position]? = some transaction)
    {change : UIEventTransaction → UIEventTransaction}
    (evolves : UIEventTransaction.Evolves transaction (change transaction)) :
    Inv (tracker.update position change) := by
  obtain ⟨hlength, -⟩ := List.getElem?_eq_some_iff.mp htransaction
  have htinv := inv.transactions position transaction htransaction
  unfold SentryUIEventTrackerTransactionMode.update
  rw [htransaction]
  dsimp only
  constructor
  · intro other otherTransaction hother
    rw [List.getElem?_set] at hother
    split at hother
    · cases hother
      exact evolves.inv htinv
    · exact inv.transactions other otherTransaction hother
  · intro other hother
    dsimp only at hother ⊢
    rw [List.getElem?_set]
    by_cases hposition : position = other
    · subst hposition
      rw [if_pos rfl, if_pos hlength]
      refine ⟨_, rfl, ?_⟩
      cases hfinished : (change transaction).tracer.isFinished with
      | false => rfl
      | true =>
        have hactive : position ∈ tracker.activeTransactions := by
          split at hother
          · exact (List.mem_filter.mp hother).1
          · exact hother
        obtain ⟨same, hsame, hopen⟩ := inv.active position hactive
        cases htransaction.symm.trans hsame
        rw [htinv.finishCallback hopen, evolves.callsBack hopen hfinished] at hother
        simp at hother
    · rw [if_neg hposition]
      apply inv.active
      split at hother
      · exact (List.mem_filter.mp hother).1
      · exact hother

theorem update_transactions {tracker : SentryUIEventTrackerTransactionMode} {position : Nat}
    {transaction : UIEventTransaction}
    (htransaction : tracker.transactions[position]? = some transaction)
    (change : UIEventTransaction → UIEventTransaction) :
    (tracker.update position change).transactions =
      tracker.transactions.set position (change transaction) := by
  unfold update
  rw [htransaction]

theorem update_self {tracker : SentryUIEventTrackerTransactionMode} {position : Nat}
    {transaction : UIEventTransaction}
    (htransaction : tracker.transactions[position]? = some transaction)
    (change : UIEventTransaction → UIEventTransaction) :
    (tracker.update position change).transactions[position]? = some (change transaction) := by
  obtain ⟨hlength, -⟩ := List.getElem?_eq_some_iff.mp htransaction
  rw [update_transactions htransaction, List.getElem?_set_self hlength]

theorem WaitsForChildren.update {tracker : SentryUIEventTrackerTransactionMode} {event : Event}
    {position : Nat} {transaction : UIEventTransaction}
    (htransaction : tracker.transactions[position]? = some transaction)
    {change : UIEventTransaction → UIEventTransaction}
    (evolves : UIEventTransaction.Evolves transaction (change transaction))
    (ends : transaction.tracer.isFinished = false →
      (change transaction).tracer.isFinished = true →
      (change transaction).tracer.wasFinishCalled = true → event = .deadlineTimer position ∨
        ∀ child span, transaction.tracer.children[child]? = some span →
          span.isFinished = false → ∃ status, event = .finishChild position child status) :
    WaitsForChildren tracker event (tracker.update position change) := by
  have hchanged : ∀ (other : Nat) (before after : UIEventTransaction),
      tracker.transactions[other]? = some before →
      (tracker.update position change).transactions[other]? = some after →
        position = other ∧ transaction = before ∧ change transaction = after ∨ before = after := by
    intro other before after hbefore hafter
    by_cases hposition : position = other
    · subst hposition
      rw [update_self htransaction] at hafter
      cases htransaction.symm.trans hbefore
      cases hafter
      exact Or.inl ⟨rfl, rfl, rfl⟩
    · rw [update_transactions htransaction, List.getElem?_set_ne hposition] at hafter
      exact Or.inr (Option.some.inj (hbefore.symm.trans hafter))
  constructor
  · intro other before after hbefore hafter called
    obtain ⟨-, rfl, rfl⟩ | rfl := hchanged other before after hbefore hafter
    · exact evolves.dispatched called
    · rfl
  · intro other before after hbefore hafter running finished called
    obtain ⟨rfl, rfl, rfl⟩ | rfl := hchanged other before after hbefore hafter
    · exact ends running finished called
    · cases running.symm.trans finished

section Start
variable (moment : Moment) (action operation : String) (isProfiling bindToScope : Bool)

theorem startTransaction_last (tracker : SentryUIEventTrackerTransactionMode) :
    (tracker.startTransaction moment action operation isProfiling
      bindToScope).transactions[tracker.transactions.length]? = some (.startTransaction moment
        action operation tracker.idleTimeout isProfiling bindToScope) := by
  unfold startTransaction
  exact List.getElem?_concat_length

theorem startTransaction_inv {tracker : SentryUIEventTrackerTransactionMode} (inv : Inv tracker)
    (blocks : moment.createDispatchBlock = true) :
    Inv (tracker.startTransaction moment action operation isProfiling bindToScope) := by
  have hstarted := UIEventTransaction.startTransaction_started moment action operation
    tracker.idleTimeout isProfiling bindToScope blocks
  have hlast := startTransaction_last moment action operation isProfiling bindToScope tracker
  constructor
  · intro position transaction htransaction
    unfold startTransaction at htransaction
    rw [List.getElem?_append] at htransaction
    split at htransaction
    · exact inv.transactions position transaction htransaction
    · obtain rfl := List.mem_singleton.mp (List.mem_of_getElem? htransaction)
      exact hstarted.inv
  · intro position hposition
    rcases List.mem_append.mp hposition with hactive | hnew
    · obtain ⟨transaction, htransaction, hopen⟩ := inv.active position hactive
      obtain ⟨hlength, -⟩ := List.getElem?_eq_some_iff.mp htransaction
      exact ⟨transaction, (List.getElem?_append_left hlength).trans htransaction, hopen⟩
    · rw [List.mem_singleton.mp hnew]
      exact ⟨_, hlast, hstarted.running⟩

theorem startTransaction_starts {tracker tracker' : SentryUIEventTrackerTransactionMode}
    (length : tracker'.transactions.length = tracker.transactions.length)
    (blocks : moment.createDispatchBlock = true) :
    StartsTransaction tracker action
      (tracker'.startTransaction moment action operation isProfiling bindToScope) := by
  have hstarted := UIEventTransaction.startTransaction_started moment action operation
    tracker'.idleTimeout isProfiling bindToScope blocks
  refine ⟨_, ?_, hstarted.name, hstarted.running, hstarted.notCalled, hstarted.children⟩
  rw [← length]
  exact startTransaction_last moment action operation isProfiling bindToScope tracker'

theorem WaitsForChildren.startTransaction {tracker tracker' : SentryUIEventTrackerTransactionMode}
    {event : Event} (waits : WaitsForChildren tracker event tracker')
    (length : tracker'.transactions.length = tracker.transactions.length) :
    WaitsForChildren tracker event
      (tracker'.startTransaction moment action operation isProfiling bindToScope) := by
  have hold : ∀ (position : Nat) (before after : UIEventTransaction),
      tracker.transactions[position]? = some before →
      (tracker'.startTransaction moment action operation isProfiling
        bindToScope).transactions[position]? = some after →
          tracker'.transactions[position]? = some after := by
    intro position before after hbefore hafter
    obtain ⟨hlength, -⟩ := List.getElem?_eq_some_iff.mp hbefore
    unfold SentryUIEventTrackerTransactionMode.startTransaction at hafter
    rwa [List.getElem?_append_left (length ▸ hlength)] at hafter
  constructor
  · intro position before after hbefore hafter
    exact waits.noTimeout position before after hbefore (hold position before after hbefore hafter)
  · intro position before after hbefore hafter
    exact waits.ends position before after hbefore (hold position before after hbefore hafter)

end Start

theorem WaitsForChildren.refl (tracker : SentryUIEventTrackerTransactionMode) (event : Event) :
    WaitsForChildren tracker event tracker := by
  constructor
  · intro position before after hbefore hafter _
    cases hbefore.symm.trans hafter
    rfl
  · intro position before after hbefore hafter running finished
    cases hbefore.symm.trans hafter
    cases running.symm.trans finished

/-- What an event in turn does. -/
theorem handleUIEvent_spec {tracker : SentryUIEventTrackerTransactionMode} (inv : Inv tracker)
    (moment : Moment) (all : moment.shouldIgnoreWaitForChildrenCallback = fun _ => false)
    {action operation : String} {isProfiling bindToScope : Bool} (original : Moment)
    (same : moment.createDispatchBlock = original.createDispatchBlock)
    (free : LastIsFree tracker (.handleUIEvent action operation isProfiling bindToScope,
      original)) :
    let tracker' := tracker.handleUIEvent moment action operation isProfiling bindToScope
    Inv tracker' ∧ WaitsForChildren tracker
        (.handleUIEvent action operation isProfiling bindToScope) tracker' ∧
      (RestartsIdleTimeout tracker action tracker' ∨ StartsTransaction tracker action tracker') := by
  obtain ⟨blocks, hlast⟩ := free
  rw [← same] at blocks
  intro tracker'
  cases hcurrent : tracker.lastObject with
  | none =>
    have hnew : tracker' = tracker.startTransaction moment action operation isProfiling
        bindToScope := by
      unfold tracker' handleUIEvent
      rw [hcurrent]
    rw [hnew]
    refine ⟨startTransaction_inv moment action operation isProfiling bindToScope inv blocks, ?_,
      Or.inr (startTransaction_starts moment action operation isProfiling bindToScope rfl blocks)⟩
    exact WaitsForChildren.startTransaction moment action operation isProfiling bindToScope
      (.refl tracker _) rfl
  | some current =>
    obtain ⟨transaction, htransaction, hopen⟩ :=
      inv.active current (List.mem_of_getLast? hcurrent)
    have hfree := hlast current transaction hcurrent htransaction
    have hsame : tracker.sameAction action current = decide (transaction.name = action) := by
      unfold sameAction
      rw [htransaction, Option.any_some]
    by_cases hname : transaction.name = action
    · rw [if_pos hname] at hfree
      have hevolves := UIEventTransaction.dispatchIdleTimeout_evolves moment hfree
      have hupdate : tracker' = tracker.update current
          (UIEventTransaction.dispatchIdleTimeout moment) := by
        unfold tracker' handleUIEvent
        rw [hcurrent]
        dsimp only
        rw [hsame, if_pos (decide_eq_true hname)]
      have hself := update_self htransaction (UIEventTransaction.dispatchIdleTimeout moment)
      have hdispatch : transaction.dispatchIdleTimeout moment = { transaction with
          idleTimeoutBlock := true
          dispatched := transaction.dispatched + 1 } := if_pos blocks
      rw [hupdate]
      refine ⟨inv.update htransaction hevolves, .update htransaction hevolves ?_,
        Or.inl ⟨current, transaction, htransaction, hname, hopen, hfree, ?_⟩⟩
      · intro running finished
        rw [hdispatch] at finished
        cases running.symm.trans finished
      · rw [hself, hdispatch]
    · rw [if_neg hname] at hfree
      have hevolves := UIEventTransaction.finish_evolves moment hfree
      have hupdate : tracker' = (tracker.update current
          (UIEventTransaction.finish moment)).startTransaction moment action operation isProfiling
            bindToScope := by
        unfold tracker' handleUIEvent
        rw [hcurrent]
        dsimp only
        rw [hsame, if_neg (by simpa using hname)]
      have hlength : (tracker.update current
          (UIEventTransaction.finish moment)).transactions.length =
            tracker.transactions.length := by
        rw [update_transactions htransaction, List.length_set]
      rw [hupdate]
      refine ⟨startTransaction_inv moment action operation isProfiling bindToScope
        (inv.update htransaction hevolves) blocks, ?_,
        Or.inr (startTransaction_starts moment action operation isProfiling bindToScope hlength
          blocks)⟩
      apply WaitsForChildren.startTransaction _ _ _ _ _ _ hlength
      apply WaitsForChildren.update htransaction hevolves
      intro running finished _
      have hends := UIEventTransaction.finish_ends moment
        (inv.transactions current transaction htransaction).waitForChildren all running finished
      refine Or.inr fun child span hspan hspanOpen => ?_
      cases hspanOpen.symm.trans (hends span (List.mem_of_getElem? hspan))

theorem startChildWithOperation_isFinished (moment : Moment) (activeSpan : Option Nat)
    (operation : String) (description : Option String) (transaction : UIEventTransaction) :
    (transaction.startChildWithOperation moment activeSpan operation
      description).tracer.isFinished = transaction.tracer.isFinished := by
  obtain ⟨children, hchildren⟩ := SentryTracer.startChildWithOperation_children moment activeSpan
    operation description transaction.cancelIdleTimeout.tracer
  unfold UIEventTransaction.startChildWithOperation
  dsimp only
  rw [hchildren]
  unfold UIEventTransaction.cancelIdleTimeout
  split <;> rfl

theorem finishChild_eq_some {tracker tracker' : SentryUIEventTrackerTransactionMode}
    {position child : Nat} {status : SentrySpanStatus} {moment : Moment}
    (h : tracker.step (.finishChild position child status, moment) = some tracker') :
    ∃ transaction, tracker.transactions[position]? = some transaction ∧
      tracker.update position (UIEventTransaction.finishChildWithStatus
        { moment with shouldIgnoreWaitForChildrenCallback := fun _ => false } child status) =
          tracker' := by
  simp only [step] at h
  split at h
  · rename_i transaction htransaction
    obtain ⟨-, heq⟩ := Option.ite_none_right_eq_some.mp h
    exact ⟨transaction, htransaction, Option.some.inj heq⟩
  · cases h

theorem idleTimeout_eq_some {tracker tracker' : SentryUIEventTrackerTransactionMode}
    {position : Nat} {moment : Moment}
    (h : tracker.step (.idleTimeout position, moment) = some tracker') :
    ∃ transaction, tracker.transactions[position]? = some transaction ∧
      transaction.idleTimeoutBlock = true ∧
      tracker.update position (UIEventTransaction.idleTimeout
        { moment with shouldIgnoreWaitForChildrenCallback := fun _ => false }) = tracker' := by
  simp only [step] at h
  split at h
  · rename_i transaction htransaction
    obtain ⟨hblock, heq⟩ := Option.ite_none_right_eq_some.mp h
    exact ⟨transaction, htransaction, hblock, Option.some.inj heq⟩
  · cases h

theorem step_spec {tracker tracker' : SentryUIEventTrackerTransactionMode}
    {input : Event × Moment} (inv : Inv tracker) (free : LastIsFree tracker input)
    (h : tracker.step input = some tracker') :
    Inv tracker' ∧ WaitsForChildren tracker input.1 tracker' ∧
      ∀ action operation isProfiling bindToScope,
        input.1 = .handleUIEvent action operation isProfiling bindToScope →
          RestartsIdleTimeout tracker action tracker' ∨
            StartsTransaction tracker action tracker' := by
  obtain ⟨event, moment⟩ := input
  cases event with
  | handleUIEvent action operation isProfiling bindToScope =>
    cases h
    obtain ⟨hinv, hwaits, hhandled⟩ := handleUIEvent_spec inv
      { moment with shouldIgnoreWaitForChildrenCallback := fun _ => false } rfl moment rfl free
    refine ⟨hinv, hwaits, ?_⟩
    rintro _ _ _ _ ⟨⟩
    exact hhandled
  | startChild position activeSpan operation description =>
    obtain ⟨hlength, heq⟩ := Option.ite_none_right_eq_some.mp h
    cases heq
    have htransaction := List.getElem?_eq_getElem hlength
    have hevolves := UIEventTransaction.startChildWithOperation_evolves
      { moment with shouldIgnoreWaitForChildrenCallback := fun _ => false } activeSpan operation
      description tracker.transactions[position]
    refine ⟨inv.update htransaction hevolves, .update htransaction hevolves ?_,
      fun _ _ _ _ heq => by cases heq⟩
    intro running finished
    rw [startChildWithOperation_isFinished, running] at finished
    cases finished
  | finishChild position child status =>
    obtain ⟨transaction, htransaction, heq⟩ := finishChild_eq_some h
    cases heq
    have hevolves := UIEventTransaction.finishChildWithStatus_evolves
      { moment with shouldIgnoreWaitForChildrenCallback := fun _ => false } child status transaction
    refine ⟨inv.update htransaction hevolves, .update htransaction hevolves ?_,
      fun _ _ _ _ heq => by cases heq⟩
    intro running finished called
    refine Or.inr fun other span hspan hopen => ⟨status, ?_⟩
    rw [UIEventTransaction.finishChildWithStatus_ends
      { moment with shouldIgnoreWaitForChildrenCallback := fun _ => false } child status
      (inv.transactions position transaction htransaction).waitForChildren rfl running finished
      called other span hspan hopen]
  | idleTimeout position =>
    obtain ⟨transaction, htransaction, hblock, heq⟩ := idleTimeout_eq_some h
    cases heq
    have hevolves := UIEventTransaction.idleTimeout_evolves
      { moment with shouldIgnoreWaitForChildrenCallback := fun _ => false } transaction
    refine ⟨inv.update htransaction hevolves, .update htransaction hevolves ?_,
      fun _ _ _ _ heq => by cases heq⟩
    intro running _ called
    have hframe := SentryTracer.finishInternal_frame
      { moment with shouldIgnoreWaitForChildrenCallback := fun _ => false } running
    have hnone := (inv.transactions position transaction htransaction).noTimeout running
      (hframe.wasFinishCalled.symm.trans called)
    cases hblock.symm.trans hnone
  | deadlineTimer position =>
    obtain ⟨hlength, heq⟩ := Option.ite_none_right_eq_some.mp h
    cases heq
    have htransaction := List.getElem?_eq_getElem hlength
    have hevolves := UIEventTransaction.deadlineTimerFired_evolves
      { moment with shouldIgnoreWaitForChildrenCallback := fun _ => false }
      tracker.transactions[position]
    exact ⟨inv.update htransaction hevolves,
      .update htransaction hevolves fun _ _ _ => Or.inl rfl, fun _ _ _ _ heq => by cases heq⟩

/-- In every run in which the events find the last transaction free, every step keeps what the
others wait for, and every event restarts an idle timeout or starts a transaction. -/
theorem allowed_kept (idleTimeout : ℚ) {inputs : List (Event × Moment)}
    (free : Allowed step LastIsFree (initWithIdleTimeout idleTimeout) inputs) :
    Allowed step Kept (initWithIdleTimeout idleTimeout) inputs := by
  apply Allowed.imp Inv _ _ _ free
  · exact fun _ _ _ inv free h => (step_spec inv free h).1
  · intro tracker input inv free
    exact ⟨fun tracker' h => (step_spec inv free h).2.1,
      fun action operation isProfiling bindToScope heq tracker' h =>
        (step_spec inv free h).2.2 action operation isProfiling bindToScope heq⟩
  · exact ⟨by simp [initWithIdleTimeout], by simp [initWithIdleTimeout]⟩

def quietMoment : Moment where
  date := ⟨0⟩
  dates := fun _ => ⟨0⟩
  spanIds := fun i => ⟨i⟩
  createDispatchBlock := true
  shouldIgnoreWaitForChildrenCallback := fun _ => false
  appStartMeasurement := none

def runOf (events : List Event) : List (Event × Moment) :=
  events.map fun event => (event, quietMoment)

theorem allowed_kept_restarted :
    Allowed step Kept (initWithIdleTimeout 3)
      (runOf [.handleUIEvent "A" "ui.action" false true, .handleUIEvent "A" "ui.action" false true,
        .handleUIEvent "B" "ui.action" false true]) := by
  apply allowed_kept 3
  rintro _ ⟨⟩
  refine ⟨⟨rfl, fun current transaction hcurrent => by cases hcurrent⟩, ?_⟩
  rintro _ ⟨⟩
  refine ⟨⟨rfl, ?_⟩, ?_⟩
  · rintro _ _ ⟨⟩ ⟨⟩
    exact rfl
  rintro _ ⟨⟩
  refine ⟨⟨rfl, ?_⟩, trivial⟩
  rintro _ _ ⟨⟩ ⟨⟩
  exact fun _ _ hspan => by cases hspan

/-- The transaction of the first action waits for a child, and is the last again when the second
has timed out. -/
def lastAgain : List (Event × Moment) :=
  runOf [.handleUIEvent "A" "ui.action" false true, .startChild 0 none "load" none,
    .handleUIEvent "B" "ui.action" false true, .idleTimeout 1,
    .handleUIEvent "A" "ui.action" false true]

theorem WaitsForChildren.sameCount {tracker tracker' : SentryUIEventTrackerTransactionMode}
    {event : Event} (waits : WaitsForChildren tracker event tracker') (position : Nat)
    (hbefore : tracker.transactions[position]?.isSome = true)
    (hafter : tracker'.transactions[position]?.isSome = true)
    (called : (tracker.transactions[position]?.get hbefore).tracer.wasFinishCalled = true) :
    (tracker'.transactions[position]?.get hafter).dispatched =
      (tracker.transactions[position]?.get hbefore).dispatched :=
  waits.noTimeout position _ _ (Option.some_get hbefore).symm (Option.some_get hafter).symm called

theorem lastAgain_not_kept : ¬Allowed step Kept (initWithIdleTimeout 3) lastAgain := by
  intro h
  have hlast := ((((h _ rfl).2 _ rfl).2 _ rfl).2 _ rfl).2 _ rfl
  have hcount := (hlast.1.waits _ rfl).sameCount 0 (by decide +kernel) (by decide +kernel)
    (by decide +kernel)
  exact absurd hcount (by decide +kernel)

end SentryUIEventTrackerTransactionMode

end SentryCocoa.Tracer
