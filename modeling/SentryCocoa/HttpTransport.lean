import SentryCocoa.ClientReports
import SentryCocoa.EnvelopesStore

/-! `SentryHttpTransport`: the threads that store and send envelopes, one synchronized block at a
time. The transport is not deallocated. -/
namespace SentryCocoa.FileManager

def NamedFile.items (file : NamedFile) : List EnvelopeItem := (file.contents.bind id).getD []

namespace SentryFileManager
variable (manager : SentryFileManager)

/-- The path and the contents of the first file. -/
def getOldestEnvelope : Option (JsonName × Option (List EnvelopeItem)) :=
  manager.envelopes.head?.bind fun file => file.contents.map fun contents => (file.name, contents)

def removeFileAtPath (path : JsonName) : SentryFileManager :=
  { manager with
    envelopes := manager.envelopes.filter fun file => file.name ≠ path
    ascending := manager.ascending.sublist (List.filter_sublist.map NamedFile.name) }

end SentryFileManager

end SentryCocoa.FileManager

namespace SentryCocoa.HttpTransport
open SentryCocoa.Foundation SentryCocoa.FileManager SentryCocoa.DataCategory
open SentryCocoa.ClientReports SentryCocoa.Library.Machine

/-! The state. -/

/-- What a call of `sendAllCachedEnvelopes` has to do next, from the time when it has set
`isSending`. An envelope that could not be stored has no path. -/
inductive SendCycle where
  | takeNotStoredEnvelope
  | getOldestEnvelope
  | removeRateLimitedItems (envelope : List EnvelopeItem) (envelopeFilePath : Option JsonName)
  | createEnvelopeRequest (rateLimitedEnvelope : List EnvelopeItem)
      (envelopeFilePath : Option JsonName)
  /-- The request is in flight. -/
  | completionHandler (envelope : List EnvelopeItem) (envelopePath : Option JsonName)
  /-- `deleteEnvelopeAndSendNext:` was called. -/
  | removeFileAtPath (envelopePath : Option JsonName)
  /-- `deleteEnvelopeAndSendNext:` has removed the file. -/
  | clearIsSending
  | finishedSending

def SendCycle.isInFlight : SendCycle → Bool
  | .completionHandler _ _ => true
  | _ => false

/-- How often the group was entered and left. -/
structure DispatchGroup where
  entered : Nat
  left : Nat

/-- The last three fields are not read: the items that `sendEnvelope:` was called with, those that
were answered, and those that were recorded as lost. -/
structure SentryHttpTransport where
  fileManager : SentryFileManager
  notStoredEnvelopes : List (List EnvelopeItem)
  discardedEvents : DiscardedEvents
  isSending : Bool
  isFlushing : Bool
  dispatchGroup : DispatchGroup
  /-- The calls of `flush:` that wait for the group. -/
  flushing : Nat
  /-- The envelopes of the blocks that wait on the dispatch queue. -/
  storeBlocks : List (List EnvelopeItem)
  cycles : List SendCycle
  accepted : List EnvelopeItem
  delivered : List EnvelopeItem
  lost : List EnvelopeItem

def isClientReport : EnvelopeItem → Bool
  | .other .clientReport _ => true
  | _ => false

def withoutClientReports (items : List EnvelopeItem) : List EnvelopeItem :=
  items.filter fun item => !isClientReport item

@[simp] theorem withoutClientReports_nil : withoutClientReports [] = [] := rfl

@[simp] theorem withoutClientReports_append (items items' : List EnvelopeItem) :
    withoutClientReports (items ++ items') =
      withoutClientReports items ++ withoutClientReports items' := List.filter_append ..

namespace SentryHttpTransport

/-- The files of an earlier run are there at the start. -/
def init (fileManager : SentryFileManager) : SentryHttpTransport where
  fileManager := fileManager
  notStoredEnvelopes := []
  discardedEvents := ∅
  isSending := false
  isFlushing := false
  dispatchGroup := ⟨0, 0⟩
  flushing := 0
  storeBlocks := []
  cycles := []
  accepted := fileManager.envelopes.flatMap NamedFile.items
  delivered := []
  lost := []

variable (json : JSON) (sendClientReports : Bool) (s : SentryHttpTransport)

/-- The items are recorded as lost, unless client reports are turned off. -/
def recorded (items : List EnvelopeItem) (discardedEvents : DiscardedEvents) :
    SentryHttpTransport :=
  { s with
    discardedEvents := discardedEvents
    lost := s.lost ++ if sendClientReports then items else [] }

/-- The items of the envelope that are under a rate limit. -/
def itemsToDrop (isRateLimitActive : SentryDataCategory → Bool) (items : List EnvelopeItem) :
    List EnvelopeItem :=
  items.filter fun item => isRateLimitActive (sentryDataCategoryForEnvelopItemType item)

def sendEnvelope (isRateLimitActive : SentryDataCategory → Bool) (timestamp : NSDate)
    (items : List EnvelopeItem) : Option SentryHttpTransport := do
  let (envelope, discardedEvents) ←
    (removeRateLimitedItems json sendClientReports isRateLimitActive items
      s.discardedEvents).toOption
  let s := { s with accepted := s.accepted ++ items }
  let s := s.recorded sendClientReports (itemsToDrop isRateLimitActive items) discardedEvents
  if envelope.isEmpty then return s
  let (envelopeToStore, discardedEvents) :=
    addClientReportTo json sendClientReports timestamp envelope discardedEvents
  return { s with
    discardedEvents := discardedEvents
    storeBlocks := s.storeBlocks ++ [envelopeToStore] }

/-- The block runs. An envelope that cannot be serialized makes no call of the file manager. -/
def storeEnvelope (i : Nat) (envelopeToStore : List EnvelopeItem) (call : Option StoreCall) :
    Option SentryHttpTransport :=
  let s := { s with storeBlocks := s.storeBlocks.eraseIdx i }
  match call with
  | none => some { s with notStoredEnvelopes := s.notStoredEnvelopes ++ [envelopeToStore] }
  | some call =>
    let stored := s.fileManager.storeEnvelope call
    if !stored.returned then none
    else if call.written then do
      let deleted := stored.turns.flatMap Turn.deleted
      let discardedEvents ←
        (envelopeItemsDeleted json sendClientReports deleted s.discardedEvents).toOption
      return { s with fileManager := stored.manager }.recorded sendClientReports deleted
        discardedEvents
    else some { s with
      fileManager := stored.manager
      notStoredEnvelopes := s.notStoredEnvelopes ++ [envelopeToStore] }

/-- Called at the start, when the network is back, from the blocks of `sendEnvelope:` and `flush:`
and after a delay, so at any time. -/
def sendAllCachedEnvelopes (isReady : Bool) : SentryHttpTransport :=
  if s.isSending || !isReady then s
  else { s with isSending := true, cycles := s.cycles ++ [.takeNotStoredEnvelope] }

/-- The calls of `flush:` go on to wait for the group. -/
def flush : SentryHttpTransport :=
  if s.isFlushing then s
  else { s with
    isFlushing := true
    dispatchGroup := { s.dispatchGroup with entered := s.dispatchGroup.entered + 1 }
    flushing := s.flushing + 1 }

/-- The wait is over when the group is empty or the time is. -/
def dispatchGroupWait (timedOut : Bool) : Option SentryHttpTransport :=
  if s.flushing = 0 then none
  else if !timedOut && s.dispatchGroup.entered != s.dispatchGroup.left then none
  else some { s with flushing := s.flushing - 1 }

variable (i : Nat)

def goOn (cycle : SendCycle) : SentryHttpTransport := { s with cycles := s.cycles.set i cycle }

def takeNotStoredEnvelope : SentryHttpTransport :=
  match s.notStoredEnvelopes with
  | [] => s.goOn i .getOldestEnvelope
  | envelope :: rest =>
    { s with notStoredEnvelopes := rest }.goOn i (.removeRateLimitedItems envelope none)

def readOldestEnvelope : SentryHttpTransport :=
  match s.fileManager.getOldestEnvelope with
  | none => s.goOn i .finishedSending
  | some (envelopeFilePath, none) => s.goOn i (.removeFileAtPath (some envelopeFilePath))
  | some (envelopeFilePath, some envelope) =>
    s.goOn i (.removeRateLimitedItems envelope (some envelopeFilePath))

def limitEnvelope (isRateLimitActive : SentryDataCategory → Bool) (envelope : List EnvelopeItem)
    (envelopeFilePath : Option JsonName) : Option SentryHttpTransport := do
  let (rateLimitedEnvelope, discardedEvents) ←
    (removeRateLimitedItems json sendClientReports isRateLimitActive envelope
      s.discardedEvents).toOption
  let s := s.recorded sendClientReports (itemsToDrop isRateLimitActive envelope) discardedEvents
  if rateLimitedEnvelope.isEmpty then return s.goOn i (.removeFileAtPath envelopeFilePath)
  return s.goOn i (.createEnvelopeRequest rateLimitedEnvelope envelopeFilePath)

/-- Client reports are not recorded. -/
def recordLostItems (items : List EnvelopeItem) : Option SentryHttpTransport := do
  let discardedEvents ← (recordLostEventFor json sendClientReports items s.discardedEvents).toOption
  return s.recorded sendClientReports (withoutClientReports items) discardedEvents

def createEnvelopeRequest (built : Bool) (rateLimitedEnvelope : List EnvelopeItem)
    (envelopeFilePath : Option JsonName) : Option SentryHttpTransport := do
  if built then
    return s.goOn i (.completionHandler rateLimitedEnvelope envelopeFilePath)
  else
    let s ← s.recordLostItems json sendClientReports rateLimitedEnvelope
    return s.goOn i (.removeFileAtPath envelopeFilePath)

/-- The response is its status code; no response has the code 0. -/
def isLost (response : Option Nat) (error : Bool) : Bool := error && response.getD 0 != 429

/-- A response to a request that was not recorded as lost delivers the items. -/
def recordResponse (response : Option Nat) (error : Bool) (envelope : List EnvelopeItem) :
    Option SentryHttpTransport :=
  if isLost response error then s.recordLostItems json sendClientReports envelope
  else some { s with delivered := s.delivered ++ if response.isSome then envelope else [] }

def completionHandler (response : Option Nat) (error : Bool) (envelope : List EnvelopeItem)
    (envelopePath : Option JsonName) : Option SentryHttpTransport := do
  let s ← s.recordResponse json sendClientReports response error envelope
  if response.isSome then return s.goOn i (.removeFileAtPath envelopePath)
  return s.goOn i .finishedSending

def removeEnvelopeFile (envelopePath : Option JsonName) : SentryHttpTransport :=
  { s with
    fileManager := match envelopePath with
      | some envelopePath => s.fileManager.removeFileAtPath envelopePath
      | none => s.fileManager }.goOn i .clearIsSending

def clearIsSending : SentryHttpTransport :=
  { s with isSending := false, cycles := s.cycles.eraseIdx i }

def finishedSending : SentryHttpTransport :=
  let s := { s with isSending := false, cycles := s.cycles.eraseIdx i }
  if s.isFlushing then
    { s with
      isFlushing := false
      dispatchGroup := { s.dispatchGroup with left := s.dispatchGroup.left + 1 } }
  else s

end SentryHttpTransport

/-- What happens next. A cycle of `sendAllCachedEnvelopes` goes on by itself, or with an answer of
the rate limits, of the builder of requests or of the server, which answers a request once. -/
inductive Call where
  | sendEnvelope (isRateLimitActive : SentryDataCategory → Bool) (timestamp : NSDate)
      (items : List EnvelopeItem)
  | storeEnvelope (i : Nat) (call : Option StoreCall)
  | sendAllCachedEnvelopes (isReady : Bool)
  | flush
  | dispatchGroupWait (timedOut : Bool)
  | goOn (i : Nat)
  | removeRateLimitedItems (i : Nat) (isRateLimitActive : SentryDataCategory → Bool)
  | createEnvelopeRequest (i : Nat) (built : Bool)
  | completionHandler (i : Nat) (response : Option Nat) (error : Bool)

namespace SentryHttpTransport
variable (json : JSON) (sendClientReports : Bool)

/-- The call is refused when it does not fit the state, or raises an exception. -/
def step (s : SentryHttpTransport) : Call → Option SentryHttpTransport
  | .sendEnvelope isRateLimitActive timestamp items =>
    s.sendEnvelope json sendClientReports isRateLimitActive timestamp items
  | .storeEnvelope i call => s.storeBlocks[i]?.bind fun envelopeToStore =>
    s.storeEnvelope json sendClientReports i envelopeToStore call
  | .sendAllCachedEnvelopes isReady => some (s.sendAllCachedEnvelopes isReady)
  | .flush => some s.flush
  | .dispatchGroupWait timedOut => s.dispatchGroupWait timedOut
  | .goOn i =>
    match s.cycles[i]? with
    | some .takeNotStoredEnvelope => some (s.takeNotStoredEnvelope i)
    | some .getOldestEnvelope => some (s.readOldestEnvelope i)
    | some (.removeFileAtPath envelopePath) => some (s.removeEnvelopeFile i envelopePath)
    | some .clearIsSending => some (s.clearIsSending i)
    | some .finishedSending => some (s.finishedSending i)
    | _ => none
  | .removeRateLimitedItems i isRateLimitActive =>
    match s.cycles[i]? with
    | some (.removeRateLimitedItems envelope envelopeFilePath) =>
      s.limitEnvelope json sendClientReports i isRateLimitActive envelope envelopeFilePath
    | _ => none
  | .createEnvelopeRequest i built =>
    match s.cycles[i]? with
    | some (.createEnvelopeRequest rateLimitedEnvelope envelopeFilePath) =>
      s.createEnvelopeRequest json sendClientReports i built rateLimitedEnvelope envelopeFilePath
    | _ => none
  | .completionHandler i response error =>
    match s.cycles[i]? with
    | some (.completionHandler envelope envelopePath) =>
      s.completionHandler json sendClientReports i response error envelope envelopePath
    | _ => none

/-! What the steps that record lost items leave behind. -/

section Steps
variable {json : JSON} {sendClientReports : Bool} {s s' : SentryHttpTransport} {i : Nat}

/-- The items of the envelope that are under no rate limit. -/
def itemsToSend (isRateLimitActive : SentryDataCategory → Bool) (items : List EnvelopeItem) :
    List EnvelopeItem :=
  items.filter fun item => !isRateLimitActive (sentryDataCategoryForEnvelopItemType item)

theorem removeRateLimitedItems_fst {isRateLimitActive : SentryDataCategory → Bool}
    {items : List EnvelopeItem} {discardedEvents : DiscardedEvents}
    {result : List EnvelopeItem × DiscardedEvents}
    (h : (removeRateLimitedItems json sendClientReports isRateLimitActive items
      discardedEvents).toOption = some result) :
    result.1 = itemsToSend isRateLimitActive items := by
  unfold removeRateLimitedItems at h
  dsimp only at h
  cases hfold : (items.filter fun item =>
      isRateLimitActive (sentryDataCategoryForEnvelopItemType item)).foldlM
    (fun discardedEvents item => envelopeItemDropped json sendClientReports item
      (sentryDataCategoryForEnvelopItemType item) discardedEvents) discardedEvents with
  | error fault =>
    rw [hfold] at h
    cases h
  | ok events =>
    rw [hfold] at h
    cases h
    rfl

theorem withoutClientReports_addClientReportTo (timestamp : NSDate) (items : List EnvelopeItem)
    (discardedEvents : DiscardedEvents) :
    withoutClientReports
      (addClientReportTo json sendClientReports timestamp items discardedEvents).1 =
        withoutClientReports items := by
  unfold addClientReportTo
  rw [withoutClientReports_append]
  cases (takeClientReport sendClientReports timestamp discardedEvents).1 with
  | none => exact List.append_nil _
  | some clientReport => exact List.append_nil _

theorem sendEnvelope_spec {isRateLimitActive : SentryDataCategory → Bool} {timestamp : NSDate}
    {items : List EnvelopeItem}
    (h : s.sendEnvelope json sendClientReports isRateLimitActive timestamp items = some s') :
    ∃ discardedEvents stored, s' =
      { s.recorded sendClientReports (itemsToDrop isRateLimitActive items) discardedEvents with
        accepted := s.accepted ++ items
        storeBlocks := s.storeBlocks ++ stored } ∧
      withoutClientReports stored.flatten =
        withoutClientReports (itemsToSend isRateLimitActive items) := by
  unfold sendEnvelope at h
  obtain ⟨⟨envelope, events⟩, hlimit, h⟩ := Option.bind_eq_some_iff.mp h
  have henvelope : envelope = itemsToSend isRateLimitActive items :=
    removeRateLimitedItems_fst hlimit
  dsimp only at h
  rw [← henvelope]
  cases hempty : envelope.isEmpty with
  | true =>
    rw [hempty] at h
    cases h
    rw [List.isEmpty_iff.mp hempty]
    exact ⟨events, [], by rw [List.append_nil]; rfl, rfl⟩
  | false =>
    rw [hempty] at h
    cases h
    refine ⟨_, [_], rfl, ?_⟩
    rw [List.flatten_singleton, withoutClientReports_addClientReportTo]

theorem recordLostItems_spec {items : List EnvelopeItem}
    (h : s.recordLostItems json sendClientReports items = some s') :
    ∃ discardedEvents,
      s' = s.recorded sendClientReports (withoutClientReports items) discardedEvents := by
  obtain ⟨events, -, h⟩ := Option.bind_eq_some_iff.mp h
  exact ⟨events, (Option.some.inj h).symm⟩

theorem limitEnvelope_spec {isRateLimitActive : SentryDataCategory → Bool}
    {envelope : List EnvelopeItem} {envelopeFilePath : Option JsonName}
    (h : s.limitEnvelope json sendClientReports i isRateLimitActive envelope envelopeFilePath =
      some s') :
    ∃ discardedEvents, s' =
      (s.recorded sendClientReports (itemsToDrop isRateLimitActive envelope) discardedEvents).goOn i
        (if (itemsToSend isRateLimitActive envelope).isEmpty then
          .removeFileAtPath envelopeFilePath
        else .createEnvelopeRequest (itemsToSend isRateLimitActive envelope) envelopeFilePath) := by
  unfold limitEnvelope at h
  obtain ⟨⟨limited, events⟩, hlimit, h⟩ := Option.bind_eq_some_iff.mp h
  have hlimited : limited = itemsToSend isRateLimitActive envelope :=
    removeRateLimitedItems_fst hlimit
  dsimp only at h
  rw [← hlimited]
  refine ⟨events, ?_⟩
  cases hempty : limited.isEmpty with
  | true =>
    rw [hempty] at h
    exact (Option.some.inj h).symm
  | false =>
    rw [hempty] at h
    exact (Option.some.inj h).symm

theorem createEnvelopeRequest_spec {built : Bool} {rateLimitedEnvelope : List EnvelopeItem}
    {envelopeFilePath : Option JsonName}
    (h : s.createEnvelopeRequest json sendClientReports i built rateLimitedEnvelope
      envelopeFilePath = some s') :
    (built = true ∧
      s' = s.goOn i (.completionHandler rateLimitedEnvelope envelopeFilePath)) ∨
    ∃ discardedEvents, s' =
      (s.recorded sendClientReports (withoutClientReports rateLimitedEnvelope)
        discardedEvents).goOn i (.removeFileAtPath envelopeFilePath) := by
  unfold createEnvelopeRequest at h
  cases built with
  | true => exact Or.inl ⟨rfl, (Option.some.inj h).symm⟩
  | false =>
    obtain ⟨lost, hlost, h⟩ := Option.bind_eq_some_iff.mp h
    obtain ⟨events, rfl⟩ := recordLostItems_spec hlost
    exact Or.inr ⟨events, (Option.some.inj h).symm⟩

/-- What is left to do when a request has been answered. -/
def afterResponse (response : Option Nat) (envelopePath : Option JsonName) : SendCycle :=
  if response.isSome then .removeFileAtPath envelopePath else .finishedSending

theorem completionHandler_spec {response : Option Nat} {error : Bool}
    {envelope : List EnvelopeItem} {envelopePath : Option JsonName}
    (h : s.completionHandler json sendClientReports i response error envelope envelopePath =
      some s') :
    (isLost response error = true ∧ ∃ discardedEvents, s' =
      (s.recorded sendClientReports (withoutClientReports envelope) discardedEvents).goOn i
        (afterResponse response envelopePath)) ∨
    (isLost response error = false ∧ s' =
      { s with delivered := s.delivered ++ if response.isSome then envelope else [] }.goOn i
        (afterResponse response envelopePath)) := by
  unfold completionHandler at h
  obtain ⟨answered, hanswered, h⟩ := Option.bind_eq_some_iff.mp h
  have hs' : s' = answered.goOn i (afterResponse response envelopePath) := by
    unfold afterResponse
    cases response with
    | none => exact (Option.some.inj h).symm
    | some statusCode => exact (Option.some.inj h).symm
  rw [hs']
  unfold recordResponse at hanswered
  cases hlost : isLost response error with
  | true =>
    rw [if_pos hlost] at hanswered
    obtain ⟨events, rfl⟩ := recordLostItems_spec hanswered
    exact Or.inl ⟨rfl, events, rfl⟩
  | false =>
    rw [hlost] at hanswered
    cases hanswered
    exact Or.inr ⟨rfl, rfl⟩

/-- The block has run: the envelope is kept in memory, or in the folder. -/
inductive StoredBlock (sendClientReports : Bool) (s : SentryHttpTransport) (i : Nat)
    (envelope : List EnvelopeItem) : Option StoreCall → SentryHttpTransport → Prop
  | notSerialized : StoredBlock sendClientReports s i envelope none
      { s with
        storeBlocks := s.storeBlocks.eraseIdx i
        notStoredEnvelopes := s.notStoredEnvelopes ++ [envelope] }
  | notWritten (call : StoreCall) (written : call.written = false) :
      StoredBlock sendClientReports s i envelope (some call)
        { s with
          storeBlocks := s.storeBlocks.eraseIdx i
          fileManager := (s.fileManager.storeEnvelope call).manager
          notStoredEnvelopes := s.notStoredEnvelopes ++ [envelope] }
  | stored (call : StoreCall) (discardedEvents : DiscardedEvents) (written : call.written = true)
      (returned : (s.fileManager.storeEnvelope call).returned = true) :
      StoredBlock sendClientReports s i envelope (some call)
        ({ s with
          storeBlocks := s.storeBlocks.eraseIdx i
          fileManager := (s.fileManager.storeEnvelope call).manager }.recorded sendClientReports
            ((s.fileManager.storeEnvelope call).turns.flatMap Turn.deleted) discardedEvents)

theorem storeEnvelope_spec {envelope : List EnvelopeItem} {call : Option StoreCall}
    (h : s.storeEnvelope json sendClientReports i envelope call = some s') :
    StoredBlock sendClientReports s i envelope call s' := by
  cases call with
  | none =>
    cases h
    exact .notSerialized
  | some call =>
    unfold storeEnvelope at h
    dsimp only at h
    cases hreturned : (s.fileManager.storeEnvelope call).returned with
    | false =>
      rw [hreturned] at h
      cases h
    | true =>
      rw [hreturned] at h
      cases hwritten : call.written with
      | false =>
        rw [hwritten] at h
        cases h
        exact .notWritten call hwritten
      | true =>
        rw [hwritten] at h
        obtain ⟨events, -, h⟩ := Option.bind_eq_some_iff.mp h
        rw [← Option.some.inj h]
        exact .stored call events hwritten hreturned

end Steps

/-! One cycle at a time. -/

structure Controlled (s : SentryHttpTransport) : Prop where
  inFlight : s.cycles.countP SendCycle.isInFlight ≤ 1
  /-- A cycle is there exactly as long as `isSending` is set, and it is the only one. -/
  isSending : s.cycles.length = if s.isSending then 1 else 0
  dispatchGroup : s.dispatchGroup.entered = s.dispatchGroup.left + if s.isFlushing then 1 else 0

theorem Controlled.of_length {s : SentryHttpTransport}
    (isSending : s.cycles.length = if s.isSending then 1 else 0)
    (dispatchGroup : s.dispatchGroup.entered =
      s.dispatchGroup.left + if s.isFlushing then 1 else 0) : s.Controlled where
  inFlight := by
    have hcount : s.cycles.countP SendCycle.isInFlight ≤ s.cycles.length := List.countP_le_length
    split at isSending
    · omega
    · omega
  isSending := isSending
  dispatchGroup := dispatchGroup

theorem Controlled.init (fileManager : SentryFileManager) : (init fileManager).Controlled :=
  .of_length rfl rfl

/-- The only cycle is the one that is asked for. -/
theorem Controlled.cycles_eq {s : SentryHttpTransport} (controlled : s.Controlled) {i : Nat}
    {cycle : SendCycle} (h : s.cycles[i]? = some cycle) :
    s.isSending = true ∧ i = 0 ∧ s.cycles = [cycle] := by
  have hlength := controlled.isSending
  obtain ⟨hi, hcycle⟩ := List.getElem?_eq_some_iff.mp h
  cases hsending : s.isSending with
  | false =>
    rw [hsending] at hlength
    simp at hlength
    simp [hlength] at hi
  | true =>
    rw [hsending, if_pos rfl] at hlength
    have hzero : i = 0 := by omega
    subst hzero
    obtain ⟨only, honly⟩ := List.length_eq_one_iff.mp hlength
    rw [honly, List.getElem?_cons_zero] at h
    rw [honly, Option.some.inj h]
    exact ⟨rfl, rfl, rfl⟩

/-- Nothing changes but where the cycle stands. -/
structure SameControl (s s' : SentryHttpTransport) : Prop where
  cycles : s'.cycles.length = s.cycles.length
  isSending : s'.isSending = s.isSending
  isFlushing : s'.isFlushing = s.isFlushing
  dispatchGroup : s'.dispatchGroup = s.dispatchGroup

section Control
variable {json : JSON} {sendClientReports : Bool} {s s' : SentryHttpTransport} {i : Nat}

theorem SameControl.controlled (same : SameControl s s') (controlled : s.Controlled) :
    s'.Controlled := by
  apply Controlled.of_length
  · rw [same.cycles, same.isSending, controlled.isSending]
  · rw [same.dispatchGroup, same.isFlushing, controlled.dispatchGroup]

theorem SameControl.goOn (same : SameControl s s') (i : Nat) (cycle : SendCycle) :
    SameControl s (s'.goOn i cycle) where
  cycles := (List.length_set ..).trans same.cycles
  isSending := same.isSending
  isFlushing := same.isFlushing
  dispatchGroup := same.dispatchGroup

theorem sendEnvelope_sameControl {isRateLimitActive : SentryDataCategory → Bool}
    {timestamp : NSDate} {items : List EnvelopeItem}
    (h : s.sendEnvelope json sendClientReports isRateLimitActive timestamp items = some s') :
    SameControl s s' := by
  obtain ⟨events, stored, rfl, -⟩ := sendEnvelope_spec h
  exact ⟨rfl, rfl, rfl, rfl⟩

theorem storeEnvelope_sameControl {envelope : List EnvelopeItem} {call : Option StoreCall}
    (h : s.storeEnvelope json sendClientReports i envelope call = some s') :
    SameControl s s' := by
  cases storeEnvelope_spec h with
  | notSerialized => exact ⟨rfl, rfl, rfl, rfl⟩
  | notWritten call written => exact ⟨rfl, rfl, rfl, rfl⟩
  | stored call events written returned => exact ⟨rfl, rfl, rfl, rfl⟩

theorem takeNotStoredEnvelope_sameControl (s : SentryHttpTransport) (i : Nat) :
    SameControl s (s.takeNotStoredEnvelope i) := by
  unfold takeNotStoredEnvelope
  split
  · apply SameControl.goOn
    exact ⟨rfl, rfl, rfl, rfl⟩
  · apply SameControl.goOn
    exact ⟨rfl, rfl, rfl, rfl⟩

theorem readOldestEnvelope_sameControl (s : SentryHttpTransport) (i : Nat) :
    SameControl s (s.readOldestEnvelope i) := by
  unfold readOldestEnvelope
  split
  · apply SameControl.goOn
    exact ⟨rfl, rfl, rfl, rfl⟩
  · apply SameControl.goOn
    exact ⟨rfl, rfl, rfl, rfl⟩
  · apply SameControl.goOn
    exact ⟨rfl, rfl, rfl, rfl⟩

theorem removeEnvelopeFile_sameControl (s : SentryHttpTransport) (i : Nat)
    (envelopePath : Option JsonName) : SameControl s (s.removeEnvelopeFile i envelopePath) := by
  apply SameControl.goOn
  exact ⟨rfl, rfl, rfl, rfl⟩

theorem limitEnvelope_sameControl {isRateLimitActive : SentryDataCategory → Bool}
    {envelope : List EnvelopeItem} {envelopeFilePath : Option JsonName}
    (h : s.limitEnvelope json sendClientReports i isRateLimitActive envelope envelopeFilePath =
      some s') : SameControl s s' := by
  obtain ⟨events, rfl⟩ := limitEnvelope_spec h
  apply SameControl.goOn
  exact ⟨rfl, rfl, rfl, rfl⟩

theorem createEnvelopeRequest_sameControl {built : Bool} {rateLimitedEnvelope : List EnvelopeItem}
    {envelopeFilePath : Option JsonName}
    (h : s.createEnvelopeRequest json sendClientReports i built rateLimitedEnvelope
      envelopeFilePath = some s') : SameControl s s' := by
  rcases createEnvelopeRequest_spec h with ⟨-, rfl⟩ | ⟨events, rfl⟩
  · apply SameControl.goOn
    exact ⟨rfl, rfl, rfl, rfl⟩
  · apply SameControl.goOn
    exact ⟨rfl, rfl, rfl, rfl⟩

theorem completionHandler_sameControl {response : Option Nat} {error : Bool}
    {envelope : List EnvelopeItem} {envelopePath : Option JsonName}
    (h : s.completionHandler json sendClientReports i response error envelope envelopePath =
      some s') : SameControl s s' := by
  rcases completionHandler_spec h with ⟨-, events, rfl⟩ | ⟨-, rfl⟩
  · apply SameControl.goOn
    exact ⟨rfl, rfl, rfl, rfl⟩
  · apply SameControl.goOn
    exact ⟨rfl, rfl, rfl, rfl⟩

/-! The steps that set and clear `isSending` or enter and leave the group. -/

theorem Controlled.sendAllCachedEnvelopes (controlled : s.Controlled) (isReady : Bool) :
    (s.sendAllCachedEnvelopes isReady).Controlled := by
  unfold SentryHttpTransport.sendAllCachedEnvelopes
  split
  · exact controlled
  · rename_i hnot
    rw [Bool.not_eq_true, Bool.or_eq_false_iff] at hnot
    have hnone : s.cycles.length = 0 := by
      have hlength := controlled.isSending
      rwa [hnot.1] at hlength
    apply Controlled.of_length
    · change (s.cycles ++ [SendCycle.takeNotStoredEnvelope]).length = 1
      rw [List.length_append, hnone]
      rfl
    · exact controlled.dispatchGroup

theorem Controlled.flush (controlled : s.Controlled) : s.flush.Controlled := by
  have hgroup := controlled.dispatchGroup
  unfold SentryHttpTransport.flush
  cases hflushing : s.isFlushing with
  | true => exact controlled
  | false =>
    rw [hflushing] at hgroup
    apply Controlled.of_length
    · exact controlled.isSending
    · exact congrArg (· + 1) hgroup

theorem Controlled.dispatchGroupWait (controlled : s.Controlled) {timedOut : Bool}
    (h : s.dispatchGroupWait timedOut = some s') : s'.Controlled := by
  unfold SentryHttpTransport.dispatchGroupWait at h
  split at h
  · cases h
  · split at h
    · cases h
    · cases h
      exact .of_length controlled.isSending controlled.dispatchGroup

theorem Controlled.clearIsSending (controlled : s.Controlled) {cycle : SendCycle}
    (h : s.cycles[i]? = some cycle) : (s.clearIsSending i).Controlled := by
  obtain ⟨-, rfl, hcycles⟩ := controlled.cycles_eq h
  apply Controlled.of_length
  · change (s.cycles.eraseIdx 0).length = 0
    rw [hcycles]
    rfl
  · exact controlled.dispatchGroup

theorem Controlled.finishedSending (controlled : s.Controlled) {cycle : SendCycle}
    (h : s.cycles[i]? = some cycle) : (s.finishedSending i).Controlled := by
  have hcleared := controlled.clearIsSending h
  have hgroup := controlled.dispatchGroup
  unfold SentryHttpTransport.finishedSending
  dsimp only
  cases hflushing : s.isFlushing with
  | false =>
    rw [hflushing] at hgroup
    exact .of_length hcleared.isSending hgroup
  | true =>
    rw [hflushing] at hgroup
    exact .of_length hcleared.isSending hgroup

theorem Controlled.step (controlled : s.Controlled) {call : Call}
    (h : s.step json sendClientReports call = some s') : s'.Controlled := by
  cases call with
  | sendEnvelope isRateLimitActive timestamp items =>
    exact (sendEnvelope_sameControl h).controlled controlled
  | storeEnvelope i call =>
    obtain ⟨envelope, -, h⟩ := Option.bind_eq_some_iff.mp h
    exact (storeEnvelope_sameControl h).controlled controlled
  | sendAllCachedEnvelopes isReady =>
    cases h
    exact controlled.sendAllCachedEnvelopes isReady
  | flush =>
    cases h
    exact controlled.flush
  | dispatchGroupWait timedOut => exact controlled.dispatchGroupWait h
  | goOn i =>
    dsimp only [SentryHttpTransport.step] at h
    split at h
    · cases h
      exact (takeNotStoredEnvelope_sameControl s i).controlled controlled
    · cases h
      exact (readOldestEnvelope_sameControl s i).controlled controlled
    · cases h
      exact (removeEnvelopeFile_sameControl s i _).controlled controlled
    · cases h
      exact controlled.clearIsSending ‹_›
    · cases h
      exact controlled.finishedSending ‹_›
    · cases h
  | removeRateLimitedItems i isRateLimitActive =>
    dsimp only [SentryHttpTransport.step] at h
    split at h
    · exact (limitEnvelope_sameControl h).controlled controlled
    · cases h
  | createEnvelopeRequest i built =>
    dsimp only [SentryHttpTransport.step] at h
    split at h
    · exact (createEnvelopeRequest_sameControl h).controlled controlled
    · cases h
  | completionHandler i response error =>
    dsimp only [SentryHttpTransport.step] at h
    split at h
    · exact (completionHandler_sameControl h).controlled controlled
    · cases h

end Control

theorem always_controlled (fileManager : SentryFileManager) (calls : List Call) :
    Always (step json sendClientReports) Controlled (init fileManager) calls :=
  always_of_invariant (fun _ controlled => controlled)
    (fun _ _ _ controlled h => controlled.step h) (Controlled.init fileManager) calls

end SentryHttpTransport

end SentryCocoa.HttpTransport
