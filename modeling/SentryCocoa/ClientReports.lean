import SentryCocoa.FileManager
import SentryCocoa.Serialization

/-! The counters of lost items, and the client report that takes them to the server. -/
namespace SentryCocoa.ClientReports
open SentryCocoa.Foundation SentryCocoa.Serialization SentryCocoa.DataCategory
open SentryCocoa.FileManager

structure SentryDiscardedEvent where
  reason : SentryDiscardReason
  category : SentryDataCategory
  quantity : UInt64
  deriving DecidableEq

structure SentryClientReport where
  timestamp : NSDate
  discardedEvents : List SentryDiscardedEvent

def SentryDiscardedEvent.serialize (event : SentryDiscardedEvent) : NSDictionary Value :=
  (((∅ : NSDictionary Value).insert "reason"
    (.string (nameForSentryDiscardReason event.reason))).insert "category"
    (.string (nameForSentryDataCategory event.category))).insert "quantity"
    (.number (.integer event.quantity.toNat))

def SentryClientReport.serialize (report : SentryClientReport) : NSDictionary Value :=
  ((∅ : NSDictionary Value).insert "timestamp"
    (.number (.double ((report.timestamp.milliseconds : ℚ) / 1000)))).insert "discarded_events"
    (.array (report.discardedEvents.map fun event => Value.ofDictionary event.serialize))

/-- The parts of the JSON serialization that the transport uses, on bytes. -/
structure JSON where
  dataWithJSONObject : Value → Option (List UInt8)
  JSONObjectWithData : List UInt8 → Option Value

abbrev DiscardedEvents := NSDictionary SentryDiscardedEvent

/-- The key is `data-category:reason`. -/
def discardedEventKey (category : SentryDataCategory) (reason : SentryDiscardReason) : String :=
  nameForSentryDataCategory category ++ ":" ++ nameForSentryDiscardReason reason

variable (json : JSON) (sendClientReports : Bool)

def recordLostEventQuantity (category : SentryDataCategory) (reason : SentryDiscardReason)
    (quantity : UInt64) (discardedEvents : DiscardedEvents) : DiscardedEvents :=
  if ¬sendClientReports then discardedEvents
  else
    let key := discardedEventKey category reason
    let quantity := match discardedEvents.objectForKey key with
      | some event => event.quantity + 1
      | none => quantity
    discardedEvents.insert key ⟨reason, category, quantity⟩

def recordLostEvent (category : SentryDataCategory) (reason : SentryDiscardReason)
    (discardedEvents : DiscardedEvents) : DiscardedEvents :=
  recordLostEventQuantity sendClientReports category reason 1 discardedEvents

/-- The number of spans in the data of a transaction; none when it holds no JSON. -/
def spansCount (data : List UInt8) : Except Fault (Option Nat) :=
  match json.JSONObjectWithData data with
  | none => pure none
  | some (.dictionary transactionJson) =>
    match transactionJson.lookup "spans" with
    | none => pure (some 0)
    | some (.array spans) => pure (some spans.length)
    | some (.dictionary spans) => pure (some spans.length)
    | some _ => throw .exception
  | some _ => throw .exception

def recordLostSpans (envelopeItem : EnvelopeItem) (reason : SentryDiscardReason)
    (discardedEvents : DiscardedEvents) : Except Fault DiscardedEvents :=
  match envelopeItem with
  | .other .transaction data => do
    match ← spansCount json data with
    | none => return discardedEvents
    | some count =>
      return recordLostEventQuantity sendClientReports .span reason (UInt64.ofNat count + 1)
        discardedEvents
  | _ => pure discardedEvents

/-- The delegate of the rate limit. -/
def envelopeItemDropped (envelopeItem : EnvelopeItem) (dataCategory : SentryDataCategory)
    (discardedEvents : DiscardedEvents) : Except Fault DiscardedEvents :=
  recordLostSpans json sendClientReports envelopeItem .rateLimitBackoff
    (recordLostEvent sendClientReports dataCategory .rateLimitBackoff discardedEvents)

/-- The delegate of the file manager. -/
def envelopeItemDeleted (envelopeItem : EnvelopeItem) (dataCategory : SentryDataCategory)
    (discardedEvents : DiscardedEvents) : Except Fault DiscardedEvents :=
  recordLostSpans json sendClientReports envelopeItem .cacheOverflow
    (recordLostEvent sendClientReports dataCategory .cacheOverflow discardedEvents)

/-- We don't want to record a lost event when it's a client report. -/
def recordLostItem (discardedEvents : DiscardedEvents) (item : EnvelopeItem) :
    Except Fault DiscardedEvents :=
  match item with
  | .other .clientReport _ => pure discardedEvents
  | item => recordLostSpans json sendClientReports item .networkError
    (recordLostEvent sendClientReports (sentryDataCategoryForEnvelopItemType item) .networkError
      discardedEvents)

def recordLostEventFor (items : List EnvelopeItem) (discardedEvents : DiscardedEvents) :
    Except Fault DiscardedEvents :=
  items.foldlM (recordLostItem json sendClientReports) discardedEvents

/-- `SentryEnvelopeRateLimit`: the items that are left, and the counters. -/
def removeRateLimitedItems (isRateLimitActive : SentryDataCategory → Bool)
    (items : List EnvelopeItem) (discardedEvents : DiscardedEvents) :
    Except Fault (List EnvelopeItem × DiscardedEvents) := do
  let limited := fun item => isRateLimitActive (sentryDataCategoryForEnvelopItemType item)
  let discardedEvents ← (items.filter limited).foldlM
    (fun discardedEvents item => envelopeItemDropped json sendClientReports item
      (sentryDataCategoryForEnvelopItemType item) discardedEvents) discardedEvents
  return (items.filter fun item => !limited item, discardedEvents)

/-- The items that the file manager has deleted. -/
def envelopeItemsDeleted (items : List EnvelopeItem) (discardedEvents : DiscardedEvents) :
    Except Fault DiscardedEvents :=
  items.foldlM (fun discardedEvents item => envelopeItemDeleted json sendClientReports item
    (sentryDataCategoryForEnvelopItemType item) discardedEvents) discardedEvents

def itemWithClientReport (clientReport : SentryClientReport) : EnvelopeItem :=
  .other .clientReport
    ((json.dataWithJSONObject (Value.ofDictionary clientReport.serialize)).getD [])

/-- The report that an envelope takes along, and the counters without it. -/
def takeClientReport (timestamp : NSDate) (discardedEvents : DiscardedEvents) :
    Option SentryClientReport × DiscardedEvents :=
  if ¬sendClientReports then (none, discardedEvents)
  else if discardedEvents.count = 0 then (none, discardedEvents)
  else (some ⟨timestamp, discardedEvents.entries.map Sigma.snd⟩, ∅)

def addClientReportTo (timestamp : NSDate) (items : List EnvelopeItem)
    (discardedEvents : DiscardedEvents) : List EnvelopeItem × DiscardedEvents :=
  let (clientReport, discardedEvents) :=
    takeClientReport sendClientReports timestamp discardedEvents
  (items ++ clientReport.toList.map (itemWithClientReport json), discardedEvents)

/-! Keys. -/

theorem colon_notMem_name (category : SentryDataCategory) :
    ∀ c ∈ (nameForSentryDataCategory category).toList, (c != ':') = true := by
  apply List.all_eq_true.mp
  cases category <;> decide

theorem discardedEventKey_toList (category : SentryDataCategory) (reason : SentryDiscardReason) :
    (discardedEventKey category reason).toList =
      (nameForSentryDataCategory category).toList ++
        ':' :: (nameForSentryDiscardReason reason).toList := by
  simp [discardedEventKey]

theorem discardedEventKey_inj {category category' : SentryDataCategory}
    {reason reason' : SentryDiscardReason}
    (h : discardedEventKey category reason = discardedEventKey category' reason') :
    category = category' ∧ reason = reason' := by
  have hlist := congrArg String.toList h
  rw [discardedEventKey_toList, discardedEventKey_toList] at hlist
  have hname := congrArg (List.takeWhile (· != ':')) hlist
  rw [List.takeWhile_append_of_pos (colon_notMem_name category),
    List.takeWhile_append_of_pos (colon_notMem_name category')] at hname
  have hname : nameForSentryDataCategory category = nameForSentryDataCategory category' :=
    String.toList_inj.mp (by simpa using hname)
  rw [hname, List.append_cancel_left_eq, List.cons.injEq] at hlist
  have hreason := String.toList_inj.mp hlist.2
  constructor
  · revert hname
    cases category <;> cases category' <;> decide
  · revert hreason
    cases reason <;> cases reason' <;> decide

/-! Client reports that are lost themselves. -/

/-- The ways in which an item is dropped: by the rate limit when an envelope is sent and when
it is read back, for lack of space, and with a request that is not built or fails. -/
inductive DropPath where
  | sendEnvelope | sendAllCachedEnvelopes | handleEnvelopesLimit | createEnvelopeRequest
  | completionHandler
  deriving DecidableEq

def dropItem (path : DropPath) (item : EnvelopeItem) (discardedEvents : DiscardedEvents) :
    Except Fault DiscardedEvents :=
  match path with
  | .sendEnvelope | .sendAllCachedEnvelopes =>
    envelopeItemDropped json sendClientReports item (sentryDataCategoryForEnvelopItemType item)
      discardedEvents
  | .handleEnvelopesLimit =>
    envelopeItemDeleted json sendClientReports item (sentryDataCategoryForEnvelopItemType item)
      discardedEvents
  | .createEnvelopeRequest | .completionHandler =>
    recordLostItem json sendClientReports discardedEvents item

/-- Recording one more loss always changes the counters. -/
theorem recordLostEvent_ne (category : SentryDataCategory) (reason : SentryDiscardReason)
    (discardedEvents : DiscardedEvents) :
    recordLostEvent true category reason discardedEvents ≠ discardedEvents := by
  intro heq
  have hlookup := congrArg
    (fun events => NSDictionary.objectForKey events (discardedEventKey category reason)) heq
  unfold recordLostEvent recordLostEventQuantity at hlookup
  dsimp only at hlookup
  rw [if_neg (by decide), objectForKey_insert, if_pos rfl] at hlookup
  cases hevent : discardedEvents.objectForKey (discardedEventKey category reason) with
  | none =>
    rw [hevent] at hlookup
    cases hlookup
  | some event =>
    rw [hevent] at hlookup
    have hquantity := congrArg SentryDiscardedEvent.quantity (Option.some.inj hlookup)
    have hsucc : event.quantity + 1 = event.quantity := hquantity
    exact absurd hsucc (by simp)

/-- A client report is left out of the counters only on the paths of the network. -/
theorem dropItem_clientReport_iff (path : DropPath) (data : List UInt8)
    (discardedEvents : DiscardedEvents) :
    dropItem json sendClientReports path (.other .clientReport data) discardedEvents =
        .ok discardedEvents ↔
      sendClientReports = false ∨ path = .createEnvelopeRequest ∨ path = .completionHandler := by
  have hlimit : ∀ reason, (.ok (recordLostEvent sendClientReports .default reason
      discardedEvents) : Except Fault DiscardedEvents) = .ok discardedEvents ↔
      sendClientReports = false := by
    intro reason
    rw [Except.ok.injEq]
    cases sendClientReports with
    | false => exact ⟨fun _ => rfl, fun _ => rfl⟩
    | true => exact ⟨fun h => absurd h (recordLostEvent_ne .default reason discardedEvents),
        fun h => by cases h⟩
  cases path with
  | sendEnvelope =>
    simp only [reduceCtorEq, or_false]
    exact hlimit .rateLimitBackoff
  | sendAllCachedEnvelopes =>
    simp only [reduceCtorEq, or_false]
    exact hlimit .rateLimitBackoff
  | handleEnvelopesLimit =>
    simp only [reduceCtorEq, or_false]
    exact hlimit .cacheOverflow
  | createEnvelopeRequest => exact ⟨fun _ => Or.inr (Or.inl rfl), fun _ => rfl⟩
  | completionHandler => exact ⟨fun _ => Or.inr (Or.inr rfl), fun _ => rfl⟩

/-- No JSON at all. -/
def exampleJSON : JSON where
  dataWithJSONObject _ := none
  JSONObjectWithData _ := none

/-- The older of two envelopes is deleted, and its client report is counted. -/
theorem overflow_counts_clientReport :
    (handleEnvelopesLimit [⟨0, some (some [.other .clientReport []])⟩,
      ⟨1, some (some [.other .event []])⟩] 1).2 = [.other .clientReport []] ∧
    ¬ ∀ path data discardedEvents,
      dropItem exampleJSON true path (.other .clientReport data) discardedEvents =
        .ok discardedEvents := by
  refine ⟨by decide, fun h => ?_⟩
  have hdeleted := h .handleEnvelopesLimit [] ∅
  exact recordLostEvent_ne .default .cacheOverflow ∅ (Except.ok.inj hdeleted)

end SentryCocoa.ClientReports
