import SentryCocoa.Scope
import SentryCocoa.Codecs

/-! The objects that a scope holds next to plain values: its user and its
breadcrumbs, with the dictionaries that they are serialized to. -/
namespace SentryCocoa.Scope
open SentryCocoa.Foundation

/-- How an object that JSON does not know becomes text. -/
class Descriptions where
  dates : NSDateFormatter
  description : Value → String

variable [Descriptions]

/-- Keys with this prefix are for the SDK itself. -/
def isSentryKey (key : String) : Bool := "__sentry".toList.isPrefixOf key.toList

mutual

/-- The entry or element that a value is replaced by. -/
def sanitizeValue : Value → Value
  | .string s => .string s
  | .number n => .number n
  | .dictionary entries => .dictionary (sentrySanitize entries)
  | .array values => .array (sanitizeArray values)
  | .date date => .string (Descriptions.dates.toIso8601String date)
  | .null => .string (Descriptions.description .null)
  | .data bytes => .string (Descriptions.description (.data bytes))
  | .other className => .string (Descriptions.description (.other className))

def sentrySanitize : List (String × Value) → List (String × Value)
  | [] => []
  | (key, value) :: entries =>
    if isSentryKey key then sentrySanitize entries
    else (key, sanitizeValue value) :: sentrySanitize entries

def sanitizeArray : List Value → List Value
  | [] => []
  | value :: values => sanitizeValue value :: sanitizeArray values

end

def sanitizedData (data : NSDictionary Value) : Value :=
  .dictionary (sentrySanitize (data.entries.map fun entry => (entry.1, entry.2)))

/-- A location with a missing part raises when it is serialized. -/
structure SentryGeo where
  city : String
  countryCode : String
  region : String

def SentryGeo.serialize (geo : SentryGeo) : NSDictionary Value :=
  (((∅ : NSDictionary Value).insert "city" (.string geo.city)).insert "country_code"
    (.string geo.countryCode)).insert "region" (.string geo.region)

structure SentryUser where
  userId : Option String
  email : Option String
  username : Option String
  ipAddress : Option String
  segment : Option String
  name : Option String
  geo : Option SentryGeo
  data : Option (NSDictionary Value)
  unknown : Option (NSDictionary Value)

namespace SentryUser

def init : SentryUser := ⟨none, none, none, none, none, none, none, none, none⟩

def serialize (user : SentryUser) : NSDictionary Value :=
  let serializedData : NSDictionary Value := ∅
  let serializedData := serializedData.setValue (user.userId.map .string) "id"
  let serializedData := serializedData.setValue (user.email.map .string) "email"
  let serializedData := serializedData.setValue (user.username.map .string) "username"
  let serializedData := serializedData.setValue (user.ipAddress.map .string) "ip_address"
  let serializedData := serializedData.setValue (user.segment.map .string) "segment"
  let serializedData := serializedData.setValue (user.name.map .string) "name"
  let serializedData :=
    serializedData.setValue (user.geo.map fun geo => .ofDictionary geo.serialize) "geo"
  let serializedData := serializedData.setValue (user.data.map sanitizedData) "data"
  match user.unknown with
  | none => serializedData
  | some unknown => serializedData.addEntriesFromDictionary unknown

end SentryUser

instance : SentrySerializable SentryUser := ⟨SentryUser.serialize⟩

structure SentryBreadcrumb where
  level : SentryLevel
  timestamp : Option NSDate
  category : Option String
  type : Option String
  origin : Option String
  message : Option String
  data : Option (NSDictionary Value)
  unknown : Option (NSDictionary Value)

def SentryBreadcrumb.serialize (crumb : SentryBreadcrumb) : NSDictionary Value :=
  let serializedData : NSDictionary Value := ∅
  let serializedData :=
    serializedData.setValue (some (.string (nameForSentryLevel crumb.level))) "level"
  let serializedData := serializedData.setValue
    (crumb.timestamp.map fun date => .string (Descriptions.dates.toIso8601String date)) "timestamp"
  let serializedData := serializedData.setValue (crumb.category.map .string) "category"
  let serializedData := serializedData.setValue (crumb.type.map .string) "type"
  let serializedData := serializedData.setValue (crumb.origin.map .string) "origin"
  let serializedData := serializedData.setValue (crumb.message.map .string) "message"
  let serializedData := serializedData.setValue (crumb.data.map sanitizedData) "data"
  match crumb.unknown with
  | none => serializedData
  | some unknown => serializedData.addEntriesFromDictionary unknown

instance : SentrySerializable SentryBreadcrumb := ⟨SentryBreadcrumb.serialize⟩

end SentryCocoa.Scope
