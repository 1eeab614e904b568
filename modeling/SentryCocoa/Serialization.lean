import SentryCocoa.Envelope

/-! Envelopes are stored and sent as lines: the header of the envelope, then a
header line and the bytes of each item. The bytes may hold anything, so the
reader finds its way by the lengths in the item headers alone. -/
namespace SentryCocoa.Serialization
open SentryCocoa.Foundation SentryCocoa.Envelope

/-- An exception of Foundation, or an object of another class than the code expects, which
it would store unnoticed. -/
inductive Fault where
  | exception
  | otherClass
  deriving DecidableEq, Repr

def stringValue : Option Value → Except Fault (Option String)
  | none => pure none
  | some (.string s) => pure (some s)
  | some _ => throw .otherClass

section Write
variable (json : NSJSONSerialization) (dates : NSDateFormatter)

def dataWithJSONObject (jsonObject : Value) : Option NSData :=
  if json.isValidJSONObject jsonObject then json.dataWithJSONObject jsonObject else none

def serializedHeader (header : SentryEnvelopeHeader) : NSDictionary Value :=
  let serializedData : NSDictionary Value := match header.eventId with
    | none => ∅
    | some eventId => (∅ : NSDictionary Value).insert "event_id" (.string eventId.sentryIdString)
  let serializedData := match header.sdkInfo with
    | none => serializedData
    | some sdkInfo => serializedData.addEntriesFromDictionary sdkInfo.serialize
  let serializedData := match header.traceContext with
    | none => serializedData
    | some traceContext => serializedData.insert "trace" (.ofDictionary traceContext.serialize)
  match header.sentAt with
  | none => serializedData
  | some sentAt => serializedData.insert "sent_at" (.string (dates.toIso8601String sentAt))

def newlineData : NSData := ⟨[newline], by decide⟩

/-- One turn of the loop over the items. -/
def appendItem (envelopeData : NSData) (item : SentryEnvelopeItem) : Option NSData := do
  let envelopeData ← envelopeData.appendData newlineData
  let itemHeader ← dataWithJSONObject json (.ofDictionary item.header.serialize)
  let envelopeData ← envelopeData.appendData itemHeader
  let envelopeData ← envelopeData.appendData newlineData
  envelopeData.appendData item.data

def dataWithEnvelope (envelope : SentryEnvelope) : Option NSData := do
  let header ← dataWithJSONObject json (.ofDictionary (serializedHeader dates envelope.header))
  envelope.items.foldlM (appendItem json) header

end Write

section Read
variable (json : NSJSONSerialization) (dates : NSDateFormatter)

def sdkInfoWithDict (entries : List (String × Value)) : SentrySdkInfo :=
  match entries.lookup "sdk" with
  | some (.dictionary sdkInfoDict) =>
    let field (key : String) : String := match sdkInfoDict.lookup key with
      | some (.string s) => s
      | _ => ""
    .initWithName (field "name") (field "version")
  | _ => .initWithName "" ""

/-- A missing trace id becomes the empty string when it is bridged. -/
def traceContextWithDict (dictionary : List (String × Value)) :
    Except Fault (Option SentryTraceContext) := do
  let traceId ← stringValue (dictionary.lookup "trace_id")
  match ← stringValue (dictionary.lookup "public_key") with
  | none => return none
  | some publicKey =>
    let userSegment ← match dictionary.lookup "user" with
      | some (.dictionary userInfo) => match userInfo.lookup "segment" with
        | some (.string segment) => pure (some segment)
        | _ => pure none
      | some _ => throw .exception
      | none => stringValue (dictionary.lookup "user_segment")
    return some {
      traceId := SentryId.initWithUUIDString (traceId.getD "")
      publicKey := publicKey
      releaseName := ← stringValue (dictionary.lookup "release")
      environment := ← stringValue (dictionary.lookup "environment")
      transaction := ← stringValue (dictionary.lookup "transaction")
      userSegment := userSegment
      sampleRate := ← stringValue (dictionary.lookup "sample_rate")
      sampled := ← stringValue (dictionary.lookup "sampled")
      replayId := ← stringValue (dictionary.lookup "replay_id") }

def headerWithDictionary (entries : List (String × Value)) : Except Fault SentryEnvelopeHeader := do
  let eventId ← stringValue (entries.lookup "event_id")
  let sdkInfo := (entries.lookup "sdk").map fun _ => sdkInfoWithDict entries
  let traceContext ← match entries.lookup "trace" with
    | none => pure none
    | some (.dictionary trace) => traceContextWithDict trace
    | some _ => throw .exception
  let sentAt ← stringValue (entries.lookup "sent_at")
  return {
    eventId := eventId.map SentryId.initWithUUIDString
    sdkInfo := sdkInfo
    traceContext := traceContext
    sentAt := sentAt.bind dates.fromIso8601String }

/-- What a header line makes the loop over the items do: return nil, leave the loop, or
keep an item and jump. -/
inductive ItemRead where
  | returnNil
  | leave
  | item (item : SentryEnvelopeItem) (next : Nat)

/-- A missing number answers every message with zero. -/
def bodyLengthNumber (header : List (String × Value)) : Except Fault NSNumber :=
  match header.lookup "length" with
  | none => pure (.integer 0)
  | some (.number number) => pure number
  | some _ => throw .exception

def itemHeaderWithDictionary (header : List (String × Value)) (type : Value) (bodyLength : Nat) :
    Except Fault SentryEnvelopeItemHeader := do
  let some type ← stringValue (some type) | throw .otherClass
  match ← stringValue (header.lookup "filename") with
  | none => pure (.initWithType type bodyLength)
  | some filename =>
    let contentType ← stringValue (header.lookup "content_type")
    match header.lookup "attachment_type" with
    | none =>
      pure (.initAttachment type bodyLength (some filename) contentType
        (typeForSentryAttachmentName none))
    | some (.string name) =>
      pure (.initAttachment type bodyLength (some filename) contentType
        (typeForSentryAttachmentName (some name)))
    | some _ => throw .exception

/-- The body of the loop at the end `i` of a header line. An array at the root answers every
key with an array, which has no integer value. -/
def readItem (data : NSData) (endOfEnvelope i itemHeaderStart : Nat) : Except Fault ItemRead := do
  let some itemHeaderData := data.subdataWithRange itemHeaderStart (wrap (i - itemHeaderStart : Int))
    | throw .exception
  match json.JSONObjectWithData itemHeaderData with
  | none => return .returnNil
  | some (.dictionary header) =>
    let some type := header.lookup "type" | return .leave
    let number ← bodyLengthNumber header
    let bodyLength := number.unsignedIntegerValue
    if endOfEnvelope = i ∧ bodyLength ≠ 0 then return .leave
    let itemHeader ← itemHeaderWithDictionary header type bodyLength
    let i := if endOfEnvelope = i then wrap (i + 1) else i
    if bodyLength > 0 ∧ data.length < wrap (i + 1 + bodyLength) then return .returnNil
    let some itemBody := data.subdataWithRange (wrap (i + 1)) bodyLength | throw .exception
    return .item ⟨itemHeader, itemBody⟩ (wrap (i + 1 + number.integerValue))
  | some _ => throw .exception

/-- The loop over the bytes behind the envelope header; no result when the fuel runs out. -/
def readItems (data : NSData) (endOfEnvelope : Nat) :
    Nat → Nat → Nat → List SentryEnvelopeItem → Option (Except Fault (Option (List SentryEnvelopeItem)))
  | 0, _, _, _ => none
  | fuel + 1, i, itemHeaderStart, items =>
    if i ≤ endOfEnvelope then
      if data.bytes[i]? = some newline ∨ i = endOfEnvelope then
        match readItem json data endOfEnvelope i itemHeaderStart with
        | .error fault => some (.error fault)
        | .ok .returnNil => some (.ok none)
        | .ok .leave => some (.ok (some items))
        | .ok (.item item next) =>
          readItems data endOfEnvelope fuel (wrap (next + 1)) next (items ++ [item])
      else readItems data endOfEnvelope fuel (wrap (i + 1)) itemHeaderStart items
    else some (.ok (some items))

/-- The envelope header ends at the first newline. -/
def readHeader (data : NSData) : Except Fault (Option (SentryEnvelopeHeader × Nat)) :=
  match data.bytes.findIdx? (· == newline) with
  | none => pure none
  | some envelopeHeaderIndex =>
    match data.subdataWithRange 0 envelopeHeaderIndex with
    | none => throw .exception
    | some headerData =>
      match json.JSONObjectWithData headerData with
      | none => pure none
      | some (.dictionary entries) => do
        let header ← headerWithDictionary dates entries
        return some (header, envelopeHeaderIndex)
      | some _ => throw .exception

def envelopeWithData (data : NSData) : Option (Except Fault (Option SentryEnvelope)) :=
  match readHeader json dates data with
  | .error fault => some (.error fault)
  | .ok none => some (.ok none)
  | .ok (some (header, envelopeHeaderIndex)) =>
    if envelopeHeaderIndex = 0 then some (.ok none)
    else
      (readItems json data (data.length - 1) (data.length + 1) (envelopeHeaderIndex + 1)
        (envelopeHeaderIndex + 1) []).map fun result =>
        result.map fun items => items.bind fun items =>
          if items.length = 0 then none else some ⟨header, items⟩

end Read

end SentryCocoa.Serialization
