import SentryCocoa.DataCategory
import SentryCocoa.Session

/-! The folder of envelopes that wait to be sent. A file is kept as what the parser
reads from it, and a session item as the session in it; the header of an envelope
is carried along and left out here. Paths are numbers that ascend as the names do. -/
namespace SentryCocoa.FileManager
open SentryCocoa.Foundation SentryCocoa.Session SentryCocoa.DataCategory

/-- The item types, apart from sessions. -/
inductive ItemType where
  | event | transaction | attachment | userFeedback | profile | profileChunk | clientReport
  | replayVideo | statsd
  | unknown (name : String)
  deriving DecidableEq

inductive EnvelopeItem where
  | session (update : SentrySession)
  /-- An item of type session from which no session can be read. -/
  | unreadableSession (data : List UInt8)
  | other (type : ItemType) (data : List UInt8)
  deriving DecidableEq

def EnvelopeItem.isSessionType : EnvelopeItem → Bool
  | .session _ => true
  | .unreadableSession _ => true
  | .other _ _ => false

/-- A session without a release name is dropped when it is read. -/
def EnvelopeItem.sessionWithData : EnvelopeItem → Option SentrySession
  | .session update =>
    if update.releaseName = none ∨ update.releaseName = some "" then none else some update
  | _ => none

def sentryDataCategoryForEnvelopItemType : EnvelopeItem → SentryDataCategory
  | .session _ => .session
  | .unreadableSession _ => .session
  | .other .event _ => .error
  | .other .transaction _ => .transaction
  | .other .attachment _ => .attachment
  | .other .profile _ => .profile
  | .other .profileChunk _ => .profileChunk
  | .other .replayVideo _ => .replay
  | .other .statsd _ => .metricBucket
  | .other _ _ => .default

/-- No contents: the path is not a file that can be read. No items: the data is no envelope. -/
structure EnvelopeFile where
  path : Nat
  contents : Option (Option (List EnvelopeItem))
  deriving DecidableEq

def EnvelopeFile.items (file : EnvelopeFile) : List EnvelopeItem :=
  (file.contents.bind id).getD []

/-- The files in the order of their names. -/
abbrev Folder := List EnvelopeFile

namespace Folder

def contentsAtPath (folder : Folder) (path : Nat) : Option (Option (List EnvelopeItem)) :=
  (folder.find? fun file => file.path = path).bind EnvelopeFile.contents

def writeToFile (folder : Folder) (items : List EnvelopeItem) (path : Nat) : Folder :=
  folder.map fun file =>
    if file.path = path then { file with contents := some (some items) } else file

def removeFileAtPath (folder : Folder) (path : Nat) : Folder :=
  folder.filter fun file => file.path ≠ path

end Folder

/-! `SentryMigrateSessionInit`. -/

def flagInitValue (session : SentrySession) : Bool :=
  (session.flagInit.map NSNumber.boolValue).getD false

/-- All session items go, and the updated session comes last. -/
def replaceSessionEnvelopeItem (session : SentrySession) (items : List EnvelopeItem) :
    List EnvelopeItem :=
  (items.filter fun item => !item.isSessionType) ++ [.session session]

/-- The first session of an envelope with the identifier. -/
def sessionWithId (sessionId : NSUUID) (items : List EnvelopeItem) : Option SentrySession :=
  (items.filterMap EnvelopeItem.sessionWithData).find? fun session => session.sessionId = sessionId

def setInitFlagIfContainsSameSessionId (folder : Folder) (sessionId : NSUUID)
    (items : List EnvelopeItem) (envelopeFilePath : Nat) : Option Folder :=
  (sessionWithId sessionId items).map fun localSession =>
    folder.writeToFile (replaceSessionEnvelopeItem localSession.setFlagInit items) envelopeFilePath

/-- The folder after the flag was set; none when no envelope takes it. -/
def setInitFlagOnNextEnvelopeWithSameSessionId (folder : Folder) (session : SentrySession) :
    List Nat → Option Folder
  | [] => none
  | envelopeFilePath :: envelopeFilePaths =>
    match folder.contentsAtPath envelopeFilePath with
    | some (some items) =>
      (setInitFlagIfContainsSameSessionId folder session.sessionId items envelopeFilePath).or
        (setInitFlagOnNextEnvelopeWithSameSessionId folder session envelopeFilePaths)
    | _ => setInitFlagOnNextEnvelopeWithSameSessionId folder session envelopeFilePaths

def migrateSessionInit (folder : Folder) (envelopeFilePaths : List Nat) :
    List EnvelopeItem → Option Folder
  | [] => none
  | item :: items =>
    match item.sessionWithData with
    | some session =>
      if flagInitValue session then
        (setInitFlagOnNextEnvelopeWithSameSessionId folder session envelopeFilePaths).or
          (migrateSessionInit folder envelopeFilePaths items)
      else migrateSessionInit folder envelopeFilePaths items
    | none => migrateSessionInit folder envelopeFilePaths items

/-! `SentryFileManager`. -/

/-- One turn of the loop: the folder, and the items that the delegate is told about. -/
def removeEnvelope (envelopeFilePaths : List Nat) (folder : Folder) (i : Nat) :
    Folder × List EnvelopeItem :=
  match envelopeFilePaths[i]? with
  | none => (folder, [])
  | some envelopeFilePath =>
    let items := ((folder.contentsAtPath envelopeFilePath).bind id).getD []
    let migrated := migrateSessionInit folder (envelopeFilePaths.eraseIdx i) items
    let deleted := items.filter fun item =>
      !(migrated.isSome && sentryDataCategoryForEnvelopItemType item == .session)
    ((migrated.getD folder).removeFileAtPath envelopeFilePath, deleted)

/-- The list of files is read once, before the first file is removed. -/
def handleEnvelopesLimit (folder : Folder) (maxEnvelopes : Nat) : Folder × List EnvelopeItem :=
  let envelopeFilePaths := folder.map EnvelopeFile.path
  let numberOfEnvelopesToRemove := envelopeFilePaths.length - maxEnvelopes
  (List.range numberOfEnvelopesToRemove).foldl
    (fun state i =>
      let (folder, deleted) := removeEnvelope envelopeFilePaths state.1 i
      (folder, state.2 ++ deleted))
    (folder, [])

/-- A new file has the last name; nothing is stored when writing fails. -/
def storeEnvelope (folder : Folder) (maxEnvelopes path : Nat) (items : List EnvelopeItem)
    (written : Bool) : Option (Folder × List EnvelopeItem) :=
  if written then
    some (handleEnvelopesLimit (folder ++ [⟨path, some (some items)⟩]) maxEnvelopes)
  else none

/-- The path and the contents of the first file. -/
def getOldestEnvelope (folder : Folder) : Option (Nat × Option (List EnvelopeItem)) :=
  folder.head?.bind fun file => file.contents.map fun contents => (file.path, contents)

end SentryCocoa.FileManager
