import SentryCocoa.Codecs

/-! Envelopes: the container in which the program stores and sends its data,
with the dictionaries that its headers are written as. -/
namespace SentryCocoa.Envelope
open SentryCocoa.Foundation

def isHexDigit (c : Char) : Bool := c.isDigit || ('a' ≤ c && c ≤ 'f') || ('A' ≤ c && c ≤ 'F')

/-- An identifier is kept as the 32 lower-case digits that describe it. -/
structure SentryId where
  digits : List Char
  length_eq : digits.length = 32
  lower : digits.all fun c => isHexDigit c && c.toLower == c
  deriving DecidableEq

def SentryId.sentryIdString (id : SentryId) : String := String.ofList id.digits

/-- The identifier of invalid strings. -/
def SentryId.empty : SentryId := ⟨List.replicate 32 '0', by decide, by decide⟩

/-- Accepts 32 digits, or 36 characters with the dashes of a UUID. -/
def SentryId.initWithUUIDString (uuidString : String) : SentryId :=
  let chars := uuidString.toList
  let dashed := chars.length = 36 ∧
    [8, 13, 18, 23].all fun i => chars[i]? == some '-'
  let digits := (if dashed then chars.filter (· != '-') else chars).map Char.toLower
  if h : digits.length = 32 ∧ digits.all fun c => isHexDigit c && c.toLower == c then
    ⟨digits, h.1, h.2⟩
  else .empty

inductive SentryPackageManagerOption where
  | swiftPackageManager | cocoaPods | carthage | unknown
  deriving DecidableEq, Repr

/-- The package manager that a plain build is compiled with. -/
def sentryPackageInfo : SentryPackageManagerOption := .unknown

structure SentrySdkInfo where
  name : String
  version : String
  packageManager : SentryPackageManagerOption

def SentrySdkInfo.initWithName (name version : String) : SentrySdkInfo :=
  ⟨name, version, sentryPackageInfo⟩

def SentrySdkInfo.getPackageName : SentryPackageManagerOption → String → Option String
  | .swiftPackageManager, name => some ("spm:getsentry/" ++ name)
  | .cocoaPods, name => some ("cocoapods:getsentry/" ++ name)
  | .carthage, name => some ("carthage:getsentry/" ++ name)
  | .unknown, _ => none

def SentrySdkInfo.serialize (info : SentrySdkInfo) : NSDictionary Value :=
  let sdk : NSDictionary Value :=
    ((∅ : NSDictionary Value).insert "name" (.string info.name)).insert "version"
      (.string info.version)
  let sdk := match getPackageName info.packageManager info.name with
    | none => sdk
    | some name => sdk.insert "packages"
      (.ofDictionary (((∅ : NSDictionary Value).insert "name" (.string name)).insert "version"
        (.string info.version)))
  AList.singleton "sdk" (.ofDictionary sdk)

structure SentryTraceContext where
  traceId : SentryId
  publicKey : String
  releaseName : Option String
  environment : Option String
  transaction : Option String
  userSegment : Option String
  sampleRate : Option String
  sampled : Option String
  replayId : Option String

/-- Writes the sample rate under the key of the sampling decision. -/
def SentryTraceContext.serialize (context : SentryTraceContext) : NSDictionary Value :=
  let result : NSDictionary Value :=
    ((∅ : NSDictionary Value).insert "trace_id" (.string context.traceId.sentryIdString)).insert
      "public_key" (.string context.publicKey)
  let add (result : NSDictionary Value) (present : Option String) (value : Option String)
      (key : String) : NSDictionary Value :=
    if present.isSome then result.setValue (value.map .string) key else result
  let result := add result context.releaseName context.releaseName "release"
  let result := add result context.environment context.environment "environment"
  let result := add result context.transaction context.transaction "transaction"
  let result := add result context.userSegment context.userSegment "user_segment"
  let result := add result context.sampleRate context.sampleRate "sample_rate"
  let result := add result context.sampled context.sampleRate "sampled"
  add result context.replayId context.replayId "replay_id"

structure SentryEnvelopeHeader where
  eventId : Option SentryId
  sdkInfo : Option SentrySdkInfo
  traceContext : Option SentryTraceContext
  sentAt : Option NSDate

inductive SentryAttachmentType where
  | eventAttachment | viewHierarchy
  deriving DecidableEq, Repr

def nameForSentryAttachmentType : SentryAttachmentType → String
  | .viewHierarchy => "event.view_hierarchy"
  | .eventAttachment => "event.attachment"

def typeForSentryAttachmentName (name : Option String) : SentryAttachmentType :=
  if name = some "event.view_hierarchy" then .viewHierarchy else .eventAttachment

theorem typeForSentryAttachmentName_name (type : SentryAttachmentType) :
    typeForSentryAttachmentName (some (nameForSentryAttachmentType type)) = type := by
  cases type <;> decide

/-- Headers of attachments carry an attachment type, the others have none. -/
structure SentryEnvelopeItemHeader where
  type : String
  length : Nat
  filename : Option String
  contentType : Option String
  attachmentType : Option SentryAttachmentType
  deriving DecidableEq

namespace SentryEnvelopeItemHeader

def initWithType (type : String) (length : Nat) : SentryEnvelopeItemHeader :=
  ⟨type, length, none, none, none⟩

/-- The initializer of the attachment headers. -/
def initAttachment (type : String) (length : Nat) (filename contentType : Option String)
    (attachmentType : SentryAttachmentType) : SentryEnvelopeItemHeader :=
  ⟨type, length, filename, contentType, some attachmentType⟩

def serialize (header : SentryEnvelopeItemHeader) : NSDictionary Value :=
  let target : NSDictionary Value := (∅ : NSDictionary Value).insert "type" (.string header.type)
  let target := match header.filename with
    | none => target
    | some filename => target.insert "filename" (.string filename)
  let target := match header.contentType with
    | none => target
    | some contentType => target.insert "content_type" (.string contentType)
  let target := target.insert "length" (.number (.integer header.length))
  match header.attachmentType with
  | none => target
  | some type => target.insert "attachment_type" (.string (nameForSentryAttachmentType type))

end SentryEnvelopeItemHeader

structure SentryEnvelopeItem where
  header : SentryEnvelopeItemHeader
  data : NSData
  deriving DecidableEq

structure SentryEnvelope where
  header : SentryEnvelopeHeader
  items : List SentryEnvelopeItem

end SentryCocoa.Envelope
