import SentryCocoa.CrashReportScope
import SentryCocoa.Hub

/-! The converter makes an event of a crash report. The data of the scope comes
from two dictionaries: the user info that was set when the crash reporter was
installed, and the scope that the report holds, whose entries win. The threads,
the exception and the images of the crash are left out. -/
namespace SentryCocoa.CrashReports
open SentryCocoa.Foundation SentryCocoa.Scope SentryCocoa.Serialization SentryCocoa.Hub

structure CrashReport where
  user : Option (NSDictionary Value)
  sentrySdkScope : NSDictionary Value

/-- Properties take any object that they are given. -/
structure ConvertedUser where
  userId : Option Value
  email : Option Value
  username : Option Value
  data : Option Value

structure ConvertedBreadcrumb where
  level : SentryLevel
  category : Option Value
  message : Option Value
  type : Option Value
  origin : Option Value
  timestamp : Option NSDate
  data : Option Value

structure ConvertedEvent where
  level : SentryLevel
  dist : Option Value
  environment : Option Value
  context : NSDictionary Value
  extra : Option Value
  tags : Option Value
  user : Option ConvertedUser
  breadcrumbs : List ConvertedBreadcrumb
  fingerprint : Option (List String)
  releaseName : Option Value

/-- The merged dictionary that the converter keeps. -/
def initWithReport (report : CrashReport) : NSDictionary Value :=
  let userContextUnMerged := report.user.getD ∅
  let userContextMerged := userContextUnMerged.addEntriesFromDictionary report.sentrySdkScope
  userContextMerged.removeObjectForKey "sentry_sdk_scope"

def sentryLevelFromString : Option Value → Except Fault SentryLevel
  | none => pure .error
  | some (.string level) => pure
      (if level = "fatal" then .fatal
      else if level = "warning" then .warning
      else if level = "info" ∨ level = "log" then .info
      else if level = "debug" then .debug
      else if level = "error" then .error
      else .error)
  | some _ => throw .exception

section Convert
variable [Descriptions]

def fromIso8601String : Option Value → Except Fault (Option NSDate)
  | none => pure none
  | some (.string string) => pure (Descriptions.dates.fromIso8601String string)
  | some _ => throw .exception

/-- The body of the loop over the stored breadcrumbs. -/
def convertBreadcrumb (storedCrumb : Value) : Except Fault ConvertedBreadcrumb := do
  let level ← sentryLevelFromString (← objectForKeyedSubscript (some storedCrumb) "level")
  let category ← objectForKeyedSubscript (some storedCrumb) "category"
  let message ← objectForKeyedSubscript (some storedCrumb) "message"
  let type ← objectForKeyedSubscript (some storedCrumb) "type"
  let origin ← objectForKeyedSubscript (some storedCrumb) "origin"
  let timestamp ← fromIso8601String (← objectForKeyedSubscript (some storedCrumb) "timestamp")
  let data ← objectForKeyedSubscript (some storedCrumb) "data"
  return ⟨level, category, message, type, origin, timestamp, data⟩

/-- The loop runs over the keys of a dictionary, which are no dictionaries themselves. -/
def convertBreadcrumbs (userContext : NSDictionary Value) :
    Except Fault (List ConvertedBreadcrumb) :=
  match userContext.objectForKey "breadcrumbs" with
  | none => pure []
  | some (.array storedBreadcrumbs) => storedBreadcrumbs.mapM convertBreadcrumb
  | some (.dictionary []) => pure []
  | some _ => throw .exception

def convertUser (userContext : NSDictionary Value) : Except Fault (Option ConvertedUser) :=
  match userContext.objectForKey "user" with
  | none => pure none
  | some storedUser => do
    let userId ← objectForKeyedSubscript (some storedUser) "id"
    let email ← objectForKeyedSubscript (some storedUser) "email"
    let username ← objectForKeyedSubscript (some storedUser) "username"
    let data ← objectForKeyedSubscript (some storedUser) "data"
    return some ⟨userId, email, username, data⟩

def convertContext (userContext : NSDictionary Value) : Except Fault (NSDictionary Value) := do
  let mutableContext ← match userContext.objectForKey "context" with
    | none => pure ∅
    | some (.dictionary context) => pure (initWithDictionary context)
    | some _ => throw .exception
  return mutableContext.insertIfPresent (userContext.objectForKey "traceContext") "trace"

/-- The text that `%@` prints. -/
def formatted : Value → String
  | .string s => s
  | value => Descriptions.description value

def releaseNameOfApp (appContext : Option Value) : Except Fault (Option Value) := do
  match ← objectForKeyedSubscript appContext "app_identifier",
    ← objectForKeyedSubscript appContext "app_version",
    ← objectForKeyedSubscript appContext "app_build" with
  | some identifier, some version, some build =>
    return some (.string (formatted identifier ++ "@" ++ formatted version ++ "+" ++ formatted build))
  | _, _, _ => return none

def convertReleaseName (userContext : NSDictionary Value) (appContext : Option Value) :
    Except Fault (Option Value) :=
  match userContext.objectForKey "release" with
  | some releaseName => pure (some releaseName)
  | none => releaseNameOfApp appContext

def convertDist (userContext : NSDictionary Value) (appContext : Option Value) :
    Except Fault (Option Value) :=
  match userContext.objectForKey "dist" with
  | some dist => pure (some dist)
  | none => objectForKeyedSubscript appContext "app_build"

def convertUserContext (userContext : NSDictionary Value) : Except Fault ConvertedEvent := do
  let context ← convertContext userContext
  let user ← convertUser userContext
  let breadcrumbs ← convertBreadcrumbs userContext
  let appContext := context.objectForKey "app"
  let releaseName ← convertReleaseName userContext appContext
  let dist ← convertDist userContext appContext
  return {
    level := .fatal
    dist := dist
    environment := userContext.objectForKey "environment"
    context := context
    extra := userContext.objectForKey "extra"
    tags := userContext.objectForKey "tags"
    user := user
    breadcrumbs := breadcrumbs
    fingerprint := none
    releaseName := releaseName }

/-- An exception is caught, and there is no event then. -/
def convertReportToEvent (report : CrashReport) : Option ConvertedEvent :=
  (convertUserContext (initWithReport report)).toOption

end Convert

end SentryCocoa.CrashReports
