import SentryCocoa.ClientReportRuns

/-! How the client prepares an event once the scope is applied: the event processors, the
callback for the spans and the one for the whole event, and what is recorded as lost in
them. Each callback is called once for one object, so it is a function of that object. -/
namespace SentryCocoa.Client
open SentryCocoa.Foundation SentryCocoa.Serialization SentryCocoa.DataCategory
open SentryCocoa.ClientReports

/-- No array counts further than an `NSInteger`. -/
structure NSArray (α : Type) where
  objects : List α
  length_lt : objects.length < 2 ^ 63

structure SentryEvent (τ : Type) where
  type : Option String
  content : τ

structure SentryTransaction (σ τ : Type) extends SentryEvent τ where
  spans : NSArray σ

inductive Event (σ τ : Type) where
  | event (event : SentryEvent τ)
  | transaction (transaction : SentryTransaction σ τ)

/-- A callback may drop the event, change it, or return another one of its class. -/
structure EventCallback (σ τ : Type) where
  onEvent : SentryEvent τ → Option (SentryEvent τ)
  onTransaction : SentryTransaction σ τ → Option (SentryTransaction σ τ)

structure SentryOptions (σ τ : Type) where
  processors : List (EventCallback σ τ)
  beforeSendSpan : Option (σ → Option σ)
  beforeSend : Option (EventCallback σ τ)

variable {α σ τ : Type}

def NSArray.count (array : NSArray α) : UInt64 := UInt64.ofNat array.objects.length

def NSArray.filterMap (array : NSArray α) (f : α → Option α) : NSArray α where
  objects := array.objects.filterMap f
  length_lt := (List.length_filterMap_le f array.objects).trans_lt array.length_lt

def Event.type : Event σ τ → Option String
  | .event e => e.type
  | .transaction t => t.type

def EventCallback.call (callback : EventCallback σ τ) : Event σ τ → Option (Event σ τ)
  | .event event => (callback.onEvent event).map .event
  | .transaction transaction => (callback.onTransaction transaction).map .transaction

/-- The event on its way, the spans that it had when they were last counted, and what was
recorded so far. -/
structure Preparation (σ τ : Type) where
  event : Option (Event σ τ)
  eventIsATransaction : Bool
  currentSpanCount : UInt64
  recorded : List LostEvent

def spanCount : Event σ τ → UInt64
  | .event _ => 0
  | .transaction transaction => transaction.spans.count

def Preparation.start (event : Event σ τ) : Preparation σ τ where
  event := some event
  eventIsATransaction := event.type = some "transaction"
  currentSpanCount := if event.type = some "transaction" then spanCount event else 0
  recorded := []

def recordLost (eventIsNotATransaction : Bool) (reason : SentryDiscardReason) : LostEvent :=
  if eventIsNotATransaction then ⟨.error, reason, 1⟩ else ⟨.transaction, reason, 1⟩

def recordLostSpanWithReason (reason : SentryDiscardReason) (quantity : UInt64) : LostEvent :=
  ⟨.span, reason, quantity⟩

/-- If some spans got removed we still report them as dropped. -/
def recordPartiallyDroppedSpans (transaction : SentryTransaction σ τ)
    (reason : SentryDiscardReason) (preparation : Preparation σ τ) : Preparation σ τ :=
  let spanCountAfter := transaction.spans.count
  let droppedSpanCount := preparation.currentSpanCount - spanCountAfter
  { preparation with
    currentSpanCount := spanCountAfter
    recorded := if droppedSpanCount > 0 then
        preparation.recorded ++ [recordLostSpanWithReason reason droppedSpanCount]
      else preparation.recorded }

def callEventProcessors (processors : List (EventCallback σ τ)) (event : Event σ τ) :
    Option (Event σ τ) :=
  processors.foldlM (fun event processor => processor.call event) event

/-- What is recorded for a callback that was given the whole event. -/
def recordCallback (reason : SentryDiscardReason) (result : Option (Event σ τ))
    (preparation : Preparation σ τ) : Preparation σ τ :=
  match result with
  | none => { preparation with
      event := none
      recorded := preparation.recorded ++
        recordLost (!preparation.eventIsATransaction) reason ::
          if preparation.eventIsATransaction then
            -- All child spans, and one for the root.
            [recordLostSpanWithReason reason (preparation.currentSpanCount + 1)]
          else [] }
  | some (.transaction transaction) =>
    let preparation := { preparation with event := some (.transaction transaction) }
    if preparation.eventIsATransaction then
      recordPartiallyDroppedSpans transaction reason preparation
    else preparation
  | some (.event event) => { preparation with event := some (.event event) }

def runEventProcessors (options : SentryOptions σ τ) (preparation : Preparation σ τ) :
    Preparation σ τ :=
  match preparation.event with
  | none => preparation
  | some event =>
    recordCallback .eventProcessor (callEventProcessors options.processors event) preparation

/-- Only a transaction has spans; another event that claims to be one raises. -/
def runBeforeSendSpan (options : SentryOptions σ τ) (preparation : Preparation σ τ) :
    Except Fault (Preparation σ τ) :=
  match preparation.event, preparation.eventIsATransaction, options.beforeSendSpan with
  | some (.transaction transaction), true, some beforeSendSpan =>
    let processed := { transaction with spans := transaction.spans.filterMap beforeSendSpan }
    pure (recordPartiallyDroppedSpans processed .beforeSend
      { preparation with event := some (.transaction processed) })
  | some (.event _), true, some _ => throw .exception
  | _, _, _ => pure preparation

def runBeforeSend (options : SentryOptions σ τ) (preparation : Preparation σ τ) :
    Preparation σ τ :=
  match preparation.event, options.beforeSend with
  | some event, some beforeSend =>
    recordCallback .beforeSend (beforeSend.call event) preparation
  | _, _ => preparation

def prepareEvent (options : SentryOptions σ τ) (event : Event σ τ) :
    Except Fault (Preparation σ τ) := do
  let preparation := runEventProcessors options (.start event)
  let preparation ← runBeforeSendSpan options preparation
  return runBeforeSend options preparation

/-! What the claim counts. -/

def Preparation.spansLeft (preparation : Preparation σ τ) : Nat :=
  match preparation.event with
  | some (.transaction transaction) => transaction.spans.objects.length
  | _ => 0

def Preparation.rootsLost (preparation : Preparation σ τ) : Nat :=
  if preparation.event.isNone then 1 else 0

def Preparation.spansLost (preparation : Preparation σ τ) : Nat :=
  total ((preparation.recorded.filter fun lost => lost.category = .span).map LostEvent.quantity)

/-- The stages, each with what it finds and what it leaves. -/
inductive Stage (options : SentryOptions σ τ) (event : Event σ τ) :
    Preparation σ τ → Preparation σ τ → Prop
  | processors : Stage options event (.start event) (runEventProcessors options (.start event))
  | beforeSendSpan {preparation : Preparation σ τ}
      (h : runBeforeSendSpan options (runEventProcessors options (.start event)) =
        .ok preparation) :
      Stage options event (runEventProcessors options (.start event)) preparation
  | beforeSend {preparation : Preparation σ τ}
      (h : runBeforeSendSpan options (runEventProcessors options (.start event)) =
        .ok preparation) :
      Stage options event preparation (runBeforeSend options preparation)

/-- The spans that are recorded as lost and those that are sent are at least those at the
start, and as many when no stage adds any; a stage that adds some records none. -/
structure SpansAccounted (options : SentryOptions σ τ) (transaction : SentryTransaction σ τ) :
    Prop where
  atLeast : ∃ preparation, prepareEvent options (.transaction transaction) = .ok preparation ∧
    transaction.spans.objects.length + preparation.rootsLost ≤
      preparation.spansLost + preparation.spansLeft
  exact : (∀ before after, Stage options (.transaction transaction) before after →
      after.spansLeft ≤ before.spansLeft) →
    ∃ preparation, prepareEvent options (.transaction transaction) = .ok preparation ∧
      preparation.spansLost + preparation.spansLeft =
        transaction.spans.objects.length + preparation.rootsLost
  grown : ∀ before after, Stage options (.transaction transaction) before after →
    before.spansLeft < after.spansLeft → after.spansLost = before.spansLost

def processSpans (options : SentryOptions σ τ) (transaction : SentryTransaction σ τ) :
    SentryTransaction σ τ :=
  match options.beforeSendSpan with
  | some beforeSendSpan =>
    { transaction with spans := transaction.spans.filterMap beforeSendSpan }
  | none => transaction

def processTransaction (processors : List (EventCallback σ τ))
    (transaction : SentryTransaction σ τ) : Option (SentryTransaction σ τ) :=
  processors.foldlM (fun transaction processor => processor.onTransaction transaction)
    transaction

/-- Neither the event processors together nor the callback for the event return a
transaction with more spans than they were given. -/
def NothingAddsSpans (options : SentryOptions σ τ) (transaction : SentryTransaction σ τ) :
    Prop :=
  ∀ processed, processTransaction options.processors transaction = some processed →
    processed.spans.objects.length ≤ transaction.spans.objects.length ∧
    ∀ beforeSend, options.beforeSend = some beforeSend →
      ∀ sent, beforeSend.onTransaction (processSpans options processed) = some sent →
        sent.spans.objects.length ≤ (processSpans options processed).spans.objects.length

/-! One stage. -/

theorem NSArray.toNat_count (array : NSArray α) :
    array.count.toNat = array.objects.length := by
  have h := array.length_lt
  rw [NSArray.count, UInt64.toNat_ofNat']
  omega

/-- The preparation holds a transaction, and its spans are counted. -/
structure Counting (preparation : Preparation σ τ) (transaction : SentryTransaction σ τ) :
    Prop where
  event : preparation.event = some (.transaction transaction)
  isTransaction : preparation.eventIsATransaction = true
  count : preparation.currentSpanCount = transaction.spans.count

theorem Counting.spansLeft {preparation : Preparation σ τ}
    {transaction : SentryTransaction σ τ} (counting : Counting preparation transaction) :
    preparation.spansLeft = transaction.spans.objects.length := by
  rw [Preparation.spansLeft, counting.event]

theorem Counting.rootsLost {preparation : Preparation σ τ}
    {transaction : SentryTransaction σ τ} (counting : Counting preparation transaction) :
    preparation.rootsLost = 0 := by
  rw [Preparation.rootsLost, counting.event]
  rfl

theorem Counting.start (transaction : SentryTransaction σ τ)
    (htype : transaction.type = some "transaction") :
    Counting (Preparation.start (.transaction transaction)) transaction where
  event := rfl
  isTransaction := decide_eq_true htype
  count := if_pos htype

/-- What a stage does to a counted transaction: it is dropped with all of its spans and its
root, or its new spans are counted, where a difference below zero wraps around. -/
inductive Effect (before after : Preparation σ τ) : Option (SentryTransaction σ τ) → Prop
  | dropped (event : after.event = none) (roots : after.rootsLost = 1)
      (left : after.spansLeft = 0)
      (lost : after.spansLost = before.spansLost + before.spansLeft + 1) :
      Effect before after none
  | shrunk (transaction : SentryTransaction σ τ) (counting : Counting after transaction)
      (fewer : after.spansLeft ≤ before.spansLeft)
      (lost : after.spansLost + after.spansLeft = before.spansLost + before.spansLeft) :
      Effect before after (some transaction)
  | grown (transaction : SentryTransaction σ τ) (counting : Counting after transaction)
      (more : before.spansLeft < after.spansLeft)
      (lost : after.spansLost + after.spansLeft =
        before.spansLost + before.spansLeft + 2 ^ 64) :
      Effect before after (some transaction)

theorem spansLost_append (preparation : Preparation σ τ) (losses : List LostEvent) :
    ({ preparation with recorded := preparation.recorded ++ losses }).spansLost =
      preparation.spansLost +
        total ((losses.filter fun lost => lost.category = .span).map LostEvent.quantity) := by
  simp [Preparation.spansLost, total]

theorem effect_recordPartiallyDroppedSpans {preparation : Preparation σ τ}
    {transaction : SentryTransaction σ τ} (counting : Counting preparation transaction)
    (processed : SentryTransaction σ τ) (reason : SentryDiscardReason) :
    Effect preparation (recordPartiallyDroppedSpans processed reason
      { preparation with event := some (.transaction processed) }) (some processed) := by
  have hbefore := counting.spansLeft
  have hprocessed := processed.spans.toNat_count
  have htransaction := transaction.spans.toNat_count
  have hlt := processed.spans.length_lt
  have hlt' := transaction.spans.length_lt
  have hafter : Counting (recordPartiallyDroppedSpans processed reason
      { preparation with event := some (.transaction processed) }) processed :=
    ⟨rfl, counting.isTransaction, rfl⟩
  have hleft := hafter.spansLeft
  have hlost : (recordPartiallyDroppedSpans processed reason
      { preparation with event := some (.transaction processed) }).spansLost =
      preparation.spansLost + (preparation.currentSpanCount - processed.spans.count).toNat := by
    unfold recordPartiallyDroppedSpans
    dsimp only
    split
    · exact (spansLost_append _ _).trans rfl
    · rename_i hzero
      rw [UInt64.not_lt, UInt64.le_zero_iff] at hzero
      rw [hzero]
      rfl
  have hdropped : (preparation.currentSpanCount - processed.spans.count).toNat =
      (2 ^ 64 - processed.spans.objects.length + transaction.spans.objects.length) % 2 ^ 64 := by
    rw [counting.count, UInt64.toNat_sub, hprocessed, htransaction]
  by_cases hfewer : processed.spans.objects.length ≤ transaction.spans.objects.length
  · apply Effect.shrunk processed hafter <;> omega
  · apply Effect.grown processed hafter <;> omega

theorem effect_recordCallback {preparation : Preparation σ τ}
    {transaction : SentryTransaction σ τ} (counting : Counting preparation transaction)
    (reason : SentryDiscardReason) (result : Option (SentryTransaction σ τ)) :
    Effect preparation (recordCallback reason (result.map .transaction) preparation)
      result := by
  cases result with
  | none =>
    have hcount : (preparation.currentSpanCount + 1).toNat = preparation.spansLeft + 1 := by
      have hlt := transaction.spans.length_lt
      rw [counting.count, UInt64.toNat_add, transaction.spans.toNat_count, counting.spansLeft,
        UInt64.toNat_one]
      omega
    apply Effect.dropped rfl rfl rfl
    simp [recordCallback, counting.isTransaction, recordLost, recordLostSpanWithReason,
      Preparation.spansLost, total, hcount, Nat.add_assoc]
  | some processed =>
    have heffect := effect_recordPartiallyDroppedSpans counting processed reason
    unfold recordCallback
    dsimp only [Option.map_some]
    rw [if_pos counting.isTransaction]
    exact heffect

/-! The stages of a transaction. -/

theorem callEventProcessors_transaction (processors : List (EventCallback σ τ))
    (transaction : SentryTransaction σ τ) :
    callEventProcessors processors (.transaction transaction) =
      (processTransaction processors transaction).map .transaction := by
  induction processors generalizing transaction with
  | nil => rfl
  | cons processor processors ih =>
    rw [callEventProcessors, processTransaction, List.foldlM_cons, List.foldlM_cons]
    cases hcall : processor.onTransaction transaction with
    | none =>
      rw [EventCallback.call, hcall]
      rfl
    | some processed =>
      rw [EventCallback.call, hcall]
      exact ih processed

variable (options : SentryOptions σ τ)

theorem effect_runEventProcessors {preparation : Preparation σ τ}
    {transaction : SentryTransaction σ τ} (counting : Counting preparation transaction) :
    Effect preparation (runEventProcessors options preparation)
      (processTransaction options.processors transaction) := by
  unfold runEventProcessors
  rw [counting.event]
  dsimp only
  rw [callEventProcessors_transaction]
  exact effect_recordCallback counting .eventProcessor _

theorem runBeforeSendSpan_counting {preparation : Preparation σ τ}
    {transaction : SentryTransaction σ τ} (counting : Counting preparation transaction) :
    ∃ after, runBeforeSendSpan options preparation = .ok after ∧
      Counting after (processSpans options transaction) ∧
      (after = preparation ∨
        Effect preparation after (some (processSpans options transaction))) := by
  obtain ⟨event, eventIsATransaction, currentSpanCount, recorded⟩ := preparation
  have hevent : event = some (.transaction transaction) := counting.event
  have htransaction : eventIsATransaction = true := counting.isTransaction
  subst hevent htransaction
  unfold runBeforeSendSpan processSpans
  cases options.beforeSendSpan with
  | none => exact ⟨_, rfl, counting, Or.inl rfl⟩
  | some beforeSendSpan =>
    refine ⟨_, rfl, ⟨rfl, counting.isTransaction, rfl⟩, Or.inr ?_⟩
    exact effect_recordPartiallyDroppedSpans counting _ .beforeSend

theorem effect_runBeforeSend {preparation : Preparation σ τ}
    {transaction : SentryTransaction σ τ} (counting : Counting preparation transaction)
    {beforeSend : EventCallback σ τ} (h : options.beforeSend = some beforeSend) :
    Effect preparation (runBeforeSend options preparation)
      (beforeSend.onTransaction transaction) := by
  unfold runBeforeSend
  rw [counting.event, h]
  exact effect_recordCallback counting .beforeSend _

theorem processSpans_length_le (transaction : SentryTransaction σ τ) :
    (processSpans options transaction).spans.objects.length ≤
      transaction.spans.objects.length := by
  unfold processSpans
  cases options.beforeSendSpan with
  | none => exact le_rfl
  | some beforeSendSpan => exact List.length_filterMap_le _ _

variable {options}

/-- What is left to account for. A loss of the root is not one of the spans. -/
def Preparation.balance (preparation : Preparation σ τ) : Int :=
  preparation.spansLost + preparation.spansLeft - preparation.rootsLost

theorem Effect.balance_eq {before after : Preparation σ τ}
    {transaction : SentryTransaction σ τ} {result : Option (SentryTransaction σ τ)}
    (effect : Effect before after result) (counting : Counting before transaction) :
    after.balance =
      before.balance + if before.spansLeft < after.spansLeft then 2 ^ 64 else 0 := by
  have hroots := counting.rootsLost
  unfold Preparation.balance
  cases effect with
  | dropped event roots left lost =>
    rw [if_neg (by omega)]
    omega
  | shrunk processed counting' fewer lost =>
    have hroots' := counting'.rootsLost
    rw [if_neg (by omega)]
    omega
  | grown processed counting' more lost =>
    have hroots' := counting'.rootsLost
    rw [if_pos more]
    omega

theorem Effect.left_le_iff {before after : Preparation σ τ} {found : SentryTransaction σ τ}
    {result : Option (SentryTransaction σ τ)} (effect : Effect before after result)
    (counting : Counting before found) :
    after.spansLeft ≤ before.spansLeft ↔
      ∀ left, result = some left → left.spans.objects.length ≤ found.spans.objects.length := by
  rw [counting.spansLeft]
  cases effect with
  | dropped event roots left lost => simp [left]
  | shrunk processed counting' | grown processed counting' => simp [counting'.spansLeft]

theorem Effect.counting {before after : Preparation σ τ} {result : Option (SentryTransaction σ τ)}
    (effect : Effect before after result) {left : SentryTransaction σ τ}
    (h : result = some left) : Counting after left := by
  cases effect with
  | dropped event roots left lost => cases h
  | shrunk processed counting' | grown processed counting' =>
    cases h
    exact counting'

theorem Effect.event_eq_none {before after : Preparation σ τ}
    {result : Option (SentryTransaction σ τ)} (effect : Effect before after result)
    (h : result = none) : after.event = none := by
  cases effect with
  | dropped event => exact event
  | shrunk => cases h
  | grown => cases h

theorem Effect.lost_ne {before after : Preparation σ τ}
    {result : Option (SentryTransaction σ τ)} (effect : Effect before after result)
    (hmore : before.spansLeft < after.spansLeft) : after.spansLost ≠ before.spansLost := by
  cases effect with
  | dropped event roots left lost => omega
  | shrunk processed counting fewer lost => omega
  | grown processed counting more lost =>
    have hlt := processed.spans.length_lt
    have hleft := counting.spansLeft
    omega

/-- A stage leaves what it finds, or it has an effect on a counted transaction. -/
theorem Stage.effect {transaction : SentryTransaction σ τ}
    (htype : transaction.type = some "transaction") {before after : Preparation σ τ}
    (stage : Stage options (.transaction transaction) before after) :
    after = before ∨ ∃ found result, Counting before found ∧ Effect before after result := by
  have hstart := Counting.start transaction htype
  have hprocessors := effect_runEventProcessors options hstart
  generalize processTransaction options.processors transaction = result at hprocessors
  cases stage with
  | processors => exact Or.inr ⟨transaction, _, hstart, hprocessors⟩
  | beforeSendSpan h =>
    cases hprocessors with
    | dropped event =>
      unfold runBeforeSendSpan at h
      rw [event] at h
      exact Or.inl (Except.ok.inj h).symm
    | shrunk processed counting | grown processed counting =>
      obtain ⟨_, hafter, -, heffect⟩ := runBeforeSendSpan_counting options counting
      cases h.symm.trans hafter
      exact heffect.imp_right fun heffect => ⟨processed, _, counting, heffect⟩
  | beforeSend h =>
    cases hprocessors with
    | dropped event =>
      unfold runBeforeSendSpan at h
      rw [event] at h
      rw [← Except.ok.inj h, runBeforeSend, event]
      exact Or.inl rfl
    | shrunk processed counting | grown processed counting =>
      obtain ⟨_, hafter, hcounting, -⟩ := runBeforeSendSpan_counting options counting
      cases h.symm.trans hafter
      cases hbeforeSend : options.beforeSend with
      | none =>
        left
        rw [runBeforeSend, hbeforeSend, hcounting.event]
      | some beforeSend =>
        exact Or.inr ⟨_, _, hcounting, effect_runBeforeSend options hcounting hbeforeSend⟩

theorem Stage.balance_eq {transaction : SentryTransaction σ τ}
    (htype : transaction.type = some "transaction") {before after : Preparation σ τ}
    (stage : Stage options (.transaction transaction) before after) :
    after.balance =
      before.balance + if before.spansLeft < after.spansLeft then 2 ^ 64 else 0 := by
  rcases stage.effect htype with rfl | ⟨found, result, counting, effect⟩
  · rw [if_neg (lt_irrefl _), add_zero]
  · exact effect.balance_eq counting

theorem Stage.lost_ne {transaction : SentryTransaction σ τ}
    (htype : transaction.type = some "transaction") {before after : Preparation σ τ}
    (stage : Stage options (.transaction transaction) before after)
    (hmore : before.spansLeft < after.spansLeft) : after.spansLost ≠ before.spansLost := by
  rcases stage.effect htype with rfl | ⟨found, result, counting, effect⟩
  · exact absurd hmore (lt_irrefl _)
  · exact effect.lost_ne hmore

/-! The whole preparation. -/

theorem runBeforeSendSpan_after_processors (options : SentryOptions σ τ)
    {transaction : SentryTransaction σ τ} (htype : transaction.type = some "transaction") :
    ∃ after, runBeforeSendSpan options
      (runEventProcessors options (.start (.transaction transaction))) = .ok after := by
  have hprocessors := effect_runEventProcessors options (Counting.start transaction htype)
  generalize processTransaction options.processors transaction = result at hprocessors
  cases hprocessors with
  | dropped event =>
    unfold runBeforeSendSpan
    rw [event]
    exact ⟨_, rfl⟩
  | shrunk processed counting | grown processed counting =>
    obtain ⟨after, hafter, -⟩ := runBeforeSendSpan_counting options counting
    exact ⟨after, hafter⟩

/-- A transaction is always prepared, in three stages. -/
theorem prepareEvent_stages (options : SentryOptions σ τ) {transaction : SentryTransaction σ τ}
    (htype : transaction.type = some "transaction") :
    ∃ processed spansProcessed prepared,
      prepareEvent options (.transaction transaction) = .ok prepared ∧
      Stage options (.transaction transaction) (.start (.transaction transaction)) processed ∧
      Stage options (.transaction transaction) processed spansProcessed ∧
      Stage options (.transaction transaction) spansProcessed prepared := by
  obtain ⟨after, hafter⟩ := runBeforeSendSpan_after_processors options htype
  refine ⟨_, after, _, ?_, .processors, .beforeSendSpan hafter, .beforeSend hafter⟩
  rw [prepareEvent, hafter]
  rfl

theorem balance_start {transaction : SentryTransaction σ τ}
    (htype : transaction.type = some "transaction") :
    (Preparation.start (.transaction transaction)).balance =
      transaction.spans.objects.length := by
  have counting := Counting.start transaction htype
  rw [Preparation.balance, counting.spansLeft, counting.rootsLost]
  simp [Preparation.start, Preparation.spansLost, total]

theorem balance_prepared (options : SentryOptions σ τ) (transaction : SentryTransaction σ τ)
    (htype : transaction.type = some "transaction") :
    ∃ prepared, prepareEvent options (.transaction transaction) = .ok prepared ∧
      transaction.spans.objects.length ≤ prepared.balance ∧
      ((∀ before after, Stage options (.transaction transaction) before after →
        after.spansLeft ≤ before.spansLeft) →
        prepared.balance = transaction.spans.objects.length) := by
  obtain ⟨processed, spansProcessed, prepared, hprepared, first, second, third⟩ :=
    prepareEvent_stages options htype
  have hstart := balance_start htype
  have hfirst := first.balance_eq htype
  have hsecond := second.balance_eq htype
  have hthird := third.balance_eq htype
  refine ⟨prepared, hprepared, ?_, fun hnone => ?_⟩
  · rw [hthird, hsecond, hfirst, hstart]
    split <;> split <;> split <;> omega
  · rw [if_neg (Nat.not_lt.mpr (hnone _ _ third))] at hthird
    rw [if_neg (Nat.not_lt.mpr (hnone _ _ second))] at hsecond
    rw [if_neg (Nat.not_lt.mpr (hnone _ _ first))] at hfirst
    omega

/-- The condition on the callbacks says that no stage leaves more spans than it finds. -/
theorem nothingAddsSpans_iff {transaction : SentryTransaction σ τ}
    (htype : transaction.type = some "transaction") :
    NothingAddsSpans options transaction ↔
      ∀ before after, Stage options (.transaction transaction) before after →
        after.spansLeft ≤ before.spansLeft := by
  have hstart := Counting.start transaction htype
  have hprocessors := effect_runEventProcessors options hstart
  constructor
  · intro hnone before after stage
    cases stage with
    | processors =>
      exact (hprocessors.left_le_iff hstart).mpr fun processed h => (hnone processed h).1
    | beforeSendSpan h =>
      cases hresult : processTransaction options.processors transaction with
      | none =>
        rw [runBeforeSendSpan, hprocessors.event_eq_none hresult] at h
        rw [← Except.ok.inj h]
      | some processed =>
        have counting := hprocessors.counting hresult
        obtain ⟨_, hafter, hcounting, -⟩ := runBeforeSendSpan_counting options counting
        cases h.symm.trans hafter
        rw [counting.spansLeft, hcounting.spansLeft]
        exact processSpans_length_le options processed
    | beforeSend h =>
      cases hresult : processTransaction options.processors transaction with
      | none =>
        rw [runBeforeSendSpan, hprocessors.event_eq_none hresult] at h
        rw [← Except.ok.inj h, runBeforeSend, hprocessors.event_eq_none hresult]
      | some processed =>
        have counting := hprocessors.counting hresult
        obtain ⟨_, hafter, hcounting, -⟩ := runBeforeSendSpan_counting options counting
        cases h.symm.trans hafter
        cases hbeforeSend : options.beforeSend with
        | none => rw [runBeforeSend, hbeforeSend, hcounting.event]
        | some beforeSend =>
          apply ((effect_runBeforeSend options hcounting hbeforeSend).left_le_iff hcounting).mpr
          exact (hnone processed hresult).2 beforeSend hbeforeSend
  · intro hnone processed hresult
    have counting := hprocessors.counting hresult
    obtain ⟨after, hafter, hcounting, -⟩ := runBeforeSendSpan_counting options counting
    constructor
    · exact (hprocessors.left_le_iff hstart).mp (hnone _ _ .processors) processed hresult
    · intro beforeSend hbeforeSend
      apply ((effect_runBeforeSend options hcounting hbeforeSend).left_le_iff hcounting).mp
      exact hnone _ _ (.beforeSend hafter)

/-- The claim's accounting holds of a transaction exactly when no stage adds spans to it: the
number of spans that a stage adds is recorded as lost, counted down from 2⁶⁴. -/
theorem spansAccounted_iff (options : SentryOptions σ τ) (content : τ) (spans : NSArray σ) :
    SpansAccounted options ⟨⟨some "transaction", content⟩, spans⟩ ↔
      NothingAddsSpans options ⟨⟨some "transaction", content⟩, spans⟩ := by
  rw [nothingAddsSpans_iff rfl]
  obtain ⟨prepared, hprepared, hatLeast, hexact⟩ :=
    balance_prepared options ⟨⟨some "transaction", content⟩, spans⟩ rfl
  unfold Preparation.balance at hatLeast hexact
  constructor
  · intro accounted before after stage
    by_contra hmore
    rw [Nat.not_le] at hmore
    exact stage.lost_ne rfl hmore (accounted.grown before after stage hmore)
  · intro hnone
    constructor
    · exact ⟨prepared, hprepared, by omega⟩
    · intro _
      have htotal := hexact hnone
      exact ⟨prepared, hprepared, by omega⟩
    · intro before after stage hmore
      exact absurd (hnone before after stage) (Nat.not_le.mpr hmore)

/-- A callback that sends every transaction with two spans. -/
def sendsTwoSpans : EventCallback Unit Unit where
  onEvent event := some event
  onTransaction transaction := some { transaction with spans := ⟨[(), ()], by decide⟩ }

/-- One span becomes two, and 2⁶⁴ - 1 spans are recorded as lost. -/
theorem added_span_is_recorded_as_lost :
    ¬ SpansAccounted ⟨[], none, some sendsTwoSpans⟩
      ⟨⟨some "transaction", ()⟩, ⟨[()], by decide⟩⟩ := by
  intro accounted
  have hgrown := accounted.grown _ _ (.beforeSend rfl) (by decide)
  exact absurd hgrown (by decide)

end SentryCocoa.Client
