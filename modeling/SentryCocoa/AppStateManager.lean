import Mathlib.Data.Rat.Floor
import SentryCocoa.Codecs
import SentryCocoa.Library.Machine

/-! The app state that tells the next launch whether a watchdog killed this one. Some updates
of it are made at once, the others wait in a queue and read the file when their turn comes. -/
namespace SentryCocoa.AppStateManager
open SentryCocoa.Foundation

structure SentryAppState where
  releaseName : Option String
  osVersion : String
  vendorId : Option String
  isDebugging : Bool
  systemBootTimestamp : NSDate
  isActive : Bool
  wasTerminated : Bool
  isANROngoing : Bool
  isSDKRunning : Bool
  deriving DecidableEq

/-- `round`: halves go away from zero. -/
def round (x : ℚ) : Int := if 0 ≤ x then ⌊x + 1 / 2⌋ else ⌈x - 1 / 2⌉

/-- What the platform answers when a state is built. An app may have no identifier for its
vendor. -/
structure Device where
  releaseName : Option String
  systemVersion : String
  identifierForVendor : Option String
  isBeingTraced : Bool
  /-- Seconds since 1970. -/
  systemBootTimestamp : ℚ

namespace SentryAppState

/-- The boot of the system is rounded to seconds. -/
def initWithReleaseName (releaseName : Option String) (osVersion : String)
    (vendorId : Option String) (isDebugging : Bool) (systemBootTimestamp : ℚ) :
    SentryAppState where
  releaseName := releaseName
  osVersion := osVersion
  vendorId := vendorId
  isDebugging := isDebugging
  systemBootTimestamp := ⟨1000 * round systemBootTimestamp⟩
  isActive := false
  wasTerminated := false
  isANROngoing := false
  isSDKRunning := true

variable (dates : NSDateFormatter)

def serialize (state : SentryAppState) : NSDictionary Value :=
  let data : NSDictionary Value :=
    ((∅ : NSDictionary Value).insertIfPresent (state.releaseName.map .string) "release_name").insert
      "os_version" (.string state.osVersion)
  let data : NSDictionary Value :=
    (data.setValue (state.vendorId.map .string) "vendor_id").insert
      "is_debugging" (.number (.bool state.isDebugging))
  let data : NSDictionary Value := data.insert "system_boot_timestamp"
    (.string (dates.toIso8601String state.systemBootTimestamp))
  let data : NSDictionary Value :=
    (data.insert "is_active" (.number (.bool state.isActive))).insert
      "was_terminated" (.number (.bool state.wasTerminated))
  (data.insert "is_anr_ongoing" (.number (.bool state.isANROngoing))).insert
    "is_sdk_running" (.number (.bool state.isSDKRunning))

/-- An app can lack a release name, but not have one of another class. -/
def releaseNameValue : Option Value → Option (Option String)
  | none => some none
  | some (.string releaseName) => some (some releaseName)
  | some _ => none

/-- The property was added later, so a dictionary can lack it. -/
def isSDKRunningValue : Option Value → Bool
  | some (.number isSDKRunning) => isSDKRunning.boolValue
  | _ => true

def initWithJSONObject (jsonObject : NSDictionary Value) : Option SentryAppState := do
  let releaseName ← releaseNameValue (jsonObject.objectForKey "release_name")
  let some (.string osVersion) := jsonObject.objectForKey "os_version" | none
  let some (.string vendorId) := jsonObject.objectForKey "vendor_id" | none
  let some (.number isDebugging) := jsonObject.objectForKey "is_debugging" | none
  let some (.string systemBoot) := jsonObject.objectForKey "system_boot_timestamp" | none
  let systemBootTimestamp ← dates.fromIso8601String systemBoot
  let some (.number isActive) := jsonObject.objectForKey "is_active" | none
  let some (.number wasTerminated) := jsonObject.objectForKey "was_terminated" | none
  let some (.number isANROngoing) := jsonObject.objectForKey "is_anr_ongoing" | none
  return {
    releaseName := releaseName
    osVersion := osVersion
    vendorId := some vendorId
    isDebugging := isDebugging.boolValue
    systemBootTimestamp := systemBootTimestamp
    isActive := isActive.boolValue
    wasTerminated := wasTerminated.boolValue
    isANROngoing := isANROngoing.boolValue
    isSDKRunning := isSDKRunningValue (jsonObject.objectForKey "is_sdk_running") }

/-- A state without the identifier of the vendor is written, but never read. -/
theorem initWithJSONObject_serialize (state : SentryAppState) :
    initWithJSONObject dates (state.serialize dates) =
      if state.vendorId.isSome then some state else none := by
  obtain ⟨releaseName, osVersion, vendorId, isDebugging, boot, active, terminated, ongoing, runs⟩ :=
    state
  unfold initWithJSONObject serialize
  simp only [objectForKey_insert, objectForKey_insertIfPresent, objectForKey_setValue,
    objectForKey_empty, String.reduceEq, if_true, if_false, Option.or_none]
  cases releaseName <;> cases vendorId <;>
    simp [releaseNameValue, isSDKRunningValue, NSNumber.boolValue, dates.fromIso8601String_toIso8601String]

theorem initWithJSONObject_vendorId {jsonObject : NSDictionary Value} {state : SentryAppState}
    (h : initWithJSONObject dates jsonObject = some state) : state.vendorId.isSome := by
  unfold initWithJSONObject at h
  obtain ⟨releaseName, -, h⟩ := Option.bind_eq_some_iff.mp h
  split at h <;> try cases h
  split at h <;> try cases h
  split at h <;> try cases h
  split at h <;> try cases h
  obtain ⟨boot, -, h⟩ := Option.bind_eq_some_iff.mp h
  split at h <;> try cases h
  split at h <;> try cases h
  split at h <;> cases h
  rfl

end SentryAppState

/-- An assignment in the block of an update. -/
inductive Update where
  | isActive (value : Bool)
  | wasTerminated (value : Bool)
  | isANROngoing (value : Bool)
  | isSDKRunning (value : Bool)
  deriving DecidableEq, Repr

def Update.apply (state : SentryAppState) : Update → SentryAppState
  | .isActive value => { state with isActive := value }
  | .wasTerminated value => { state with wasTerminated := value }
  | .isANROngoing value => { state with isANROngoing := value }
  | .isSDKRunning value => { state with isSDKRunning := value }

@[simp] theorem Update.apply_vendorId (state : SentryAppState) (block : Update) :
    (block.apply state).vendorId = state.vendorId := by
  cases block <;> rfl

/-- The file stands for the dictionary that JSON reads from it. -/
structure SentryAppStateManager where
  startCount : Nat
  dispatchQueue : List Update
  file : Option (NSDictionary Value)

namespace SentryAppStateManager
variable (dates : NSDateFormatter)

def readAppState (manager : SentryAppStateManager) : Option SentryAppState :=
  manager.file.bind (SentryAppState.initWithJSONObject dates)

def storeAppState (manager : SentryAppStateManager) (state : SentryAppState) :
    SentryAppStateManager :=
  { manager with file := some (state.serialize dates) }

def updateAppState (manager : SentryAppStateManager) (block : Update) : SentryAppStateManager :=
  match manager.readAppState dates with
  | none => manager
  | some state => manager.storeAppState dates (block.apply state)

def updateAppStateInBackground (manager : SentryAppStateManager) (block : Update) :
    SentryAppStateManager :=
  { manager with dispatchQueue := manager.dispatchQueue ++ [block] }

def buildCurrentAppState (device : Device) : SentryAppState :=
  .initWithReleaseName device.releaseName device.systemVersion device.identifierForVendor
    device.isBeingTraced device.systemBootTimestamp

def storeCurrentAppState (manager : SentryAppStateManager) (device : Device) :
    SentryAppStateManager :=
  manager.storeAppState dates (buildCurrentAppState device)

def start (manager : SentryAppStateManager) (device : Device) : SentryAppStateManager :=
  let manager :=
    if manager.startCount = 0 then manager.storeCurrentAppState dates device else manager
  { manager with startCount := manager.startCount + 1 }

def stopWithForce (manager : SentryAppStateManager) (forceStop : Bool) : SentryAppStateManager :=
  if manager.startCount = 0 then manager
  else if forceStop then
    { manager.updateAppStateInBackground (.isSDKRunning false) with startCount := 0 }
  else { manager with startCount := manager.startCount - 1 }

def stop (manager : SentryAppStateManager) : SentryAppStateManager := manager.stopWithForce false

def didBecomeActive (manager : SentryAppStateManager) : SentryAppStateManager :=
  manager.updateAppStateInBackground (.isActive true)

def willResignActive (manager : SentryAppStateManager) : SentryAppStateManager :=
  manager.updateAppStateInBackground (.isActive false)

def willTerminate (manager : SentryAppStateManager) : SentryAppStateManager :=
  manager.updateAppState dates (.wasTerminated true)

/-- The integration that tracks watchdog terminations listens to the tracker of app hangs. -/
def anrDetectedWithType (manager : SentryAppStateManager) : SentryAppStateManager :=
  manager.updateAppState dates (.isANROngoing true)

def anrStopped (manager : SentryAppStateManager) : SentryAppStateManager :=
  manager.updateAppState dates (.isANROngoing false)

end SentryAppStateManager

inductive Event where
  | start (device : Device)
  | stop
  | stopWithForce (forceStop : Bool)
  | didBecomeActive
  | willResignActive
  | willTerminate
  | anrDetectedWithType
  | anrStopped
  /-- The queue runs its oldest update. -/
  | dispatch

namespace SentryAppStateManager
variable (dates : NSDateFormatter)

/-- The observers are there between a start and its stop. -/
def observe (manager : SentryAppStateManager)
    (selector : SentryAppStateManager → SentryAppStateManager) : SentryAppStateManager :=
  if manager.startCount = 0 then manager else selector manager

def step (manager : SentryAppStateManager) : Event → Option SentryAppStateManager
  | .start device => some (manager.start dates device)
  | .stop => some manager.stop
  | .stopWithForce forceStop => some (manager.stopWithForce forceStop)
  | .didBecomeActive => some (manager.observe didBecomeActive)
  | .willResignActive => some (manager.observe willResignActive)
  | .willTerminate => some (manager.observe (willTerminate dates))
  | .anrDetectedWithType => some (manager.anrDetectedWithType dates)
  | .anrStopped => some (manager.anrStopped dates)
  | .dispatch =>
    match manager.dispatchQueue with
    | [] => none
    | block :: rest => some ({ manager with dispatchQueue := rest }.updateAppState dates block)

end SentryAppStateManager

end SentryCocoa.AppStateManager
