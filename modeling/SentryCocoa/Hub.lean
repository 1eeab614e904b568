import SentryCocoa.Scope
import SentryCocoa.Session
import SentryCocoa.Library.Machine

/-! The session side of the hub. The lock of the hub covers the current session and
its file; what a call does before it takes the lock and after it has left it may
be interleaved with everything else. The file system and the encoder of the file
are taken to give back what was written. -/
namespace SentryCocoa.Hub
open SentryCocoa.Foundation SentryCocoa.Scope SentryCocoa.Envelope SentryCocoa.Serialization
open SentryCocoa.Session SentryCocoa.Library.Machine

structure SentryOptions where
  releaseName : Option String
  environment : String
  enableAutoSessionTracking : Bool

/-- The identifier of the installation belongs to the cache directory of the client. -/
structure SentryClient where
  options : SentryOptions
  distinctId : String

structure SentryHub where
  client : Option SentryClient
  crashedLastLaunch : Bool
  session : Option SentrySession
  errorsBeforeSession : Nat
  /-- The file of the current session. -/
  currentSession : Option (NSDictionary Value)

/-! Which events of an envelope change the session. -/

def levels : List SentryLevel := [.none, .debug, .info, .warning, .error, .fatal]

def rawValue (level : SentryLevel) : Nat := levels.idxOf level

/-- If there is no such level the default is error. -/
def sentryLevelForString (name : Option String) : SentryLevel :=
  (levels.find? fun level => nameForSentryLevel level == name.getD "").getD .error

/-- The entry of an object that must be a dictionary, or nil. -/
def objectForKeyedSubscript (object : Option Value) (key : String) :
    Except Fault (Option Value) :=
  match object with
  | none => pure none
  | some (.dictionary entries) => pure (entries.lookup key)
  | some _ => throw .exception

/-- Strings answer `boolValue` as well. -/
def handledErrors : List Value → Except Fault Bool
  | [] => pure true
  | exception :: exceptions => do
    let mechanism ← objectForKeyedSubscript (some exception) "mechanism"
    match ← objectForKeyedSubscript mechanism "handled" with
    | none => handledErrors exceptions
    | some (.number handled) =>
      if handled.boolValue = false then pure false else handledErrors exceptions
    | some (.string _) => throw .otherClass
    | some _ => throw .exception

def eventContainsOnlyHandledErrors (eventDictionary : List (String × Value)) :
    Except Fault Bool := do
  let exception ← objectForKeyedSubscript (some (.dictionary eventDictionary)) "exception"
  match ← objectForKeyedSubscript exception "values" with
  | none => pure true
  | some (.array exceptions) => handledErrors exceptions
  | some (.dictionary []) => pure true
  | some _ => throw .exception

/-- The first event with level error or higher, and whether all its errors were handled. -/
def envelopeContainsEventWithErrorOrHigher (json : NSJSONSerialization) :
    List SentryEnvelopeItem → Except Fault (Option Bool)
  | [] => pure none
  | item :: items =>
    if item.header.type = "event" then
      match json.JSONObjectWithData item.data with
      | none => pure none
      | some (.dictionary eventJson) => do
        let level := sentryLevelForString (← stringValue (eventJson.lookup "level"))
        if rawValue level ≥ rawValue .error then
          some <$> eventContainsOnlyHandledErrors eventJson
        else envelopeContainsEventWithErrorOrHigher json items
      | some _ => throw .exception
    else envelopeContainsEventWithErrorOrHigher json items

/-- The environment of the scope replaces that of the options. -/
def applyToSession (environmentString : Option String) (session : SentrySession) :
    SentrySession :=
  match environmentString with
  | some environment => { session with environment := some environment }
  | none => session

theorem applyToSession_eq (environmentString : Option String) (session : SentrySession) :
    applyToSession environmentString session =
      { session with environment := environmentString.or session.environment } := by
  cases environmentString <;> rfl

namespace SentryHub
variable (json : NSJSONSerialization) (dates : NSDateFormatter)

/-- What a launch finds: the file that an earlier launch left. -/
def initWithClient (client : Option SentryClient) (crashedLastLaunch : Bool)
    (currentSession : Option (NSDictionary Value)) : SentryHub where
  client := client
  crashedLastLaunch := crashedLastLaunch
  session := none
  errorsBeforeSession := 0
  currentSession := currentSession

def storeCurrentSession (hub : SentryHub) (session : SentrySession) (date : NSDate) : SentryHub :=
  match hub.client with
  | some _ => { hub with currentSession := some (session.serialize dates date) }
  | none => hub

def deleteCurrentSession (hub : SentryHub) : SentryHub :=
  match hub.client with
  | some _ => { hub with currentSession := none }
  | none => hub

def readCurrentSession (hub : SentryHub) : Except Fault (Option SentrySession) :=
  match hub.client, hub.currentSession with
  | some _, some sessionDictionary => SentrySession.sessionWithData dates sessionDictionary
  | _, _ => pure none

/-- The lock block: the session that it captures, and the last session, which is ended and
captured after the lock. -/
def startSession (hub : SentryHub) (sessionId : NSUUID) (date : NSDate)
    (environmentString : Option String) :
    SentryHub × Option SentrySession × Option SentrySession :=
  match hub.client with
  | none => (hub, none, none)
  | some client => match client.options.releaseName with
    | none => (hub, none, none)
    | some releaseName =>
      let session := SentrySession.initWithReleaseName sessionId date releaseName client.distinctId
      let counts := 0 < hub.errorsBeforeSession ∧ client.options.enableAutoSessionTracking = true
      let session := applyToSession environmentString { session with
        errors := if counts then hub.errorsBeforeSession else session.errors
        environment := some client.options.environment }
      ({ hub with
          session := some session
          errorsBeforeSession := if counts then 0 else hub.errorsBeforeSession }.storeCurrentSession
        dates session date, some session, hub.session)

/-- The lock block: the session to end and capture after the lock. -/
def endSession (hub : SentryHub) : SentryHub × Option SentrySession :=
  ({ hub with session := none, errorsBeforeSession := 0 }.deleteCurrentSession, hub.session)

def incrementSessionErrors (hub : SentryHub) (date : NSDate) : SentryHub × Option SentrySession :=
  match hub.session with
  | none => (hub, none)
  | some session =>
    let session := session.incrementErrors
    ({ hub with session := some session }.storeCurrentSession dates session date, some session)

/-- The copy that goes into the envelope, and the new session that is captured under the lock. -/
def updateSessionState (hub : SentryHub) (items : List SentryEnvelopeItem) (startNewSession : Bool)
    (sessionId : NSUUID) (date : NSDate) (environmentString : Option String) :
    Except Fault (SentryHub × Option SentrySession × Option SentrySession) := do
  match ← envelopeContainsEventWithErrorOrHigher json items with
  | none => return (hub, none, none)
  | some true =>
    let (hub, currentSession) := hub.incrementSessionErrors dates date
    return (hub, currentSession, none)
  | some false =>
    match hub.session with
    | none => return (hub, none, none)
    | some session =>
      let currentSession := session.endSessionCrashedWithTimestamp date
      if startNewSession then
        -- without a current session nothing is captured after the lock
        let (hub, captured, _) :=
          { hub with session := none }.startSession dates sessionId date environmentString
        return (hub, some currentSession, captured)
      else return (hub, some currentSession, none)

/-- The session that is handed to the client. -/
def closeCachedSessionWithTimestamp (hub : SentryHub) (timestamp : Option NSDate) :
    Except Fault (SentryHub × Option SentrySession) := do
  match ← hub.readCurrentSession dates with
  | none => return (hub, none)
  | some session =>
    if hub.crashedLastLaunch then return (hub, none)
    else
      let session := match timestamp with
        | none => session.endSessionAbnormalWithTimestamp session.started
        | some timestamp => session.endSessionExitedWithTimestamp timestamp
      return (hub.deleteCurrentSession, some session)

end SentryHub

/-- A session update in the order of production, and whether the client has it. -/
structure Update where
  session : SentrySession
  handed : Bool

def Update.ofSession (session : Option SentrySession) (handed : Bool) : List Update :=
  session.toList.map fun session => ⟨session, handed⟩

/-- What is left of a call that has passed the lock or has not reached it. -/
inductive Call where
  | captureLastSession (lastSession : SentrySession)
  | captureEndedSession (currentSession : SentrySession) (timestamp : NSDate)
  | prepareEvent
  | handOver (update : Nat)

structure App where
  hub : SentryHub
  calls : List Call
  updates : List Update

inductive Input where
  | startSession (sessionId : NSUUID) (date : NSDate) (environmentString : Option String)
  | endSessionWithTimestamp (timestamp : NSDate)
  | captureError
  | captureEnvelope (items : List SentryEnvelopeItem) (sessionId : NSUUID) (date : NSDate)
      (environmentString : Option String)
  | closeCachedSessionWithTimestamp (timestamp : Option NSDate)
  /-- A waiting call goes on. -/
  | resume (call : Nat) (prepared : Bool) (date : NSDate)
  /-- The process ends; the next launch finds the file. -/
  | restart (client : Option SentryClient) (crashedLastLaunch : Bool)

def launch (client : Option SentryClient) (crashedLastLaunch : Bool) : App :=
  ⟨.initWithClient client crashedLastLaunch none, [], []⟩

namespace App
variable (json : NSJSONSerialization) (dates : NSDateFormatter)

/-- A new identifier is one that no session had. -/
def fresh (app : App) (sessionId : NSUUID) : Bool :=
  app.updates.all fun update => update.session.sessionId != sessionId

/-- The updates of a session that the client got. -/
def handedOver (app : App) (sessionId : NSUUID) : List SentrySession :=
  ((app.updates.filter Update.handed).map Update.session).filter (·.sessionId = sessionId)

/-- The updates of a session in the order of their production. -/
def produced (app : App) (sessionId : NSUUID) : List SentrySession :=
  (app.updates.map Update.session).filter (·.sessionId = sessionId)

/-- Append updates, and the calls that wait. -/
def record (app : App) (updates : List Update) (calls : List Call) : App :=
  { app with updates := app.updates ++ updates, calls := app.calls ++ calls }

/-- The event was prepared, or was dropped. -/
def resumeCall (app : App) (prepared : Bool) (date : NSDate) : Call → App
  | .captureLastSession lastSession =>
    app.record [⟨lastSession.endSessionExitedWithTimestamp date, true⟩] []
  | .captureEndedSession currentSession timestamp =>
    app.record [⟨currentSession.endSessionExitedWithTimestamp timestamp, true⟩] []
  | .prepareEvent =>
    if prepared then
      match app.hub.incrementSessionErrors dates date with
      | (hub, some session) =>
        { app with hub := hub }.record [⟨session, false⟩] [.handOver app.updates.length]
      | (hub, none) => { app with hub := hub }
    else app
  | .handOver update =>
    { app with updates := app.updates.modify update fun u => { u with handed := true } }

/-- A session is cached only until the launch starts its own; an exception ends the run. -/
def step (app : App) : Input → Option App
  | .startSession sessionId date environmentString =>
    if app.fresh sessionId then
      let (hub, captured, lastSession) :=
        app.hub.startSession dates sessionId date environmentString
      some ({ app with hub := hub }.record (Update.ofSession captured true)
        (lastSession.toList.map .captureLastSession))
    else none
  | .endSessionWithTimestamp timestamp =>
    let (hub, currentSession) := app.hub.endSession
    some ({ app with hub := hub }.record []
      (currentSession.toList.map (.captureEndedSession · timestamp)))
  | .captureError =>
    match app.hub.client, app.hub.session with
    | none, _ => some app
    | some _, none =>
      let errorsBeforeSession := app.hub.errorsBeforeSession + 1
      some { app with hub := { app.hub with errorsBeforeSession := errorsBeforeSession } }
    | some _, some _ => some (app.record [] [.prepareEvent])
  | .captureEnvelope items sessionId date environmentString =>
    if app.hub.client.isSome then
      if app.fresh sessionId then
        match app.hub.updateSessionState json dates items true sessionId date environmentString with
        | .error _ => none
        | .ok (hub, currentSession, captured) =>
          some ({ app with hub := hub }.record
            (Update.ofSession currentSession false ++ Update.ofSession captured true)
            (currentSession.toList.map fun _ => .handOver app.updates.length))
      else none
    else some app
  | .closeCachedSessionWithTimestamp timestamp =>
    if app.hub.session.isNone then
      match app.hub.closeCachedSessionWithTimestamp dates timestamp with
      | .error _ => none
      | .ok (hub, session) =>
        some ({ app with hub := hub }.record (Update.ofSession session true) [])
    else none
  | .resume call prepared date =>
    (app.calls[call]?).map fun waiting =>
      { app with calls := app.calls.eraseIdx call }.resumeCall dates prepared date waiting
  | .restart client crashedLastLaunch =>
    let hub := SentryHub.initWithClient client crashedLastLaunch app.hub.currentSession
    some { app with hub := hub, calls := [] }

end App

end SentryCocoa.Hub
