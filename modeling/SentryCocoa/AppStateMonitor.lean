import SentryCocoa.JSONFields
import SentryCocoa.Library.Machine

/-! The monitor of the app state. What it has to know of the launches before it reads from a
state file, which it writes anew on every save: the file is emptied first and then filled piece
by piece. -/
namespace SentryCocoa.AppStateMonitor
open SentryCocoa.JSONCodec SentryCocoa.Library.Simulation

/-- The doubles of the platform and their arithmetic. -/
structure Arithmetic (δ : Type) extends Doubles δ where
  zero : δ
  add : δ → δ → δ
  sub : δ → δ → δ
  ofInt64 : Int64 → δ

/-- `SentryCrash_AppState`. -/
structure AppState (δ : Type) where
  activeDurationSinceLastCrash : δ
  backgroundDurationSinceLastCrash : δ
  launchesSinceLastCrash : Int32
  sessionsSinceLastCrash : Int32
  activeDurationSinceLaunch : δ
  backgroundDurationSinceLaunch : δ
  sessionsSinceLaunch : Int32
  crashedLastLaunch : Bool
  durationFromCrashStateInitToLastCrash : δ
  crashedThisLaunch : Bool
  appStateTransitionTime : δ
  applicationIsActive : Bool
  applicationIsInForeground : Bool

variable {δ ω : Type} (arithmetic : Arithmetic δ)

/-- The state after `memset`. -/
def AppState.cleared : AppState δ where
  activeDurationSinceLastCrash := arithmetic.zero
  backgroundDurationSinceLastCrash := arithmetic.zero
  launchesSinceLastCrash := 0
  sessionsSinceLastCrash := 0
  activeDurationSinceLaunch := arithmetic.zero
  backgroundDurationSinceLaunch := arithmetic.zero
  sessionsSinceLaunch := 0
  crashedLastLaunch := false
  durationFromCrashStateInitToLastCrash := arithmetic.zero
  crashedThisLaunch := false
  appStateTransitionTime := arithmetic.zero
  applicationIsActive := false
  applicationIsInForeground := false

def kKeyFormatVersion : PlainString := ⟨ascii "version", by decide⟩

def kKeyCrashedLastLaunch : PlainString := ⟨ascii "crashedLastLaunch", by decide⟩

def kKeyDurationFromCrashStateInitToLastCrash : PlainString :=
  ⟨ascii "durationFromCrashStateInitToLastCrash", by decide⟩

def kKeyActiveDurationSinceLastCrash : PlainString :=
  ⟨ascii "activeDurationSinceLastCrash", by decide⟩

def kKeyBackgroundDurationSinceLastCrash : PlainString :=
  ⟨ascii "backgroundDurationSinceLastCrash", by decide⟩

def kKeyLaunchesSinceLastCrash : PlainString := ⟨ascii "launchesSinceLastCrash", by decide⟩

def kKeySessionsSinceLastCrash : PlainString := ⟨ascii "sessionsSinceLastCrash", by decide⟩

def kFormatVersion : Int64 := 1

/-! Reading. -/

abbrev Callback (δ : Type) := EStateM JSONError (AppState δ)

def onBooleanElement (name : Option Bytes) (value : Bool) : Callback δ Unit :=
  match name with
  | none => throw .invalidData
  | some name =>
    modify fun state =>
      if name = kKeyCrashedLastLaunch.bytes then { state with crashedLastLaunch := value }
      else state

def onFloatingPointElement (name : Option Bytes) (value : δ) : Callback δ Unit :=
  match name with
  | none => throw .invalidData
  | some name =>
    modify fun state =>
      if name = kKeyDurationFromCrashStateInitToLastCrash.bytes then
        { state with durationFromCrashStateInitToLastCrash := value }
      else if name = kKeyActiveDurationSinceLastCrash.bytes then
        { state with activeDurationSinceLastCrash := value }
      else if name = kKeyBackgroundDurationSinceLastCrash.bytes then
        { state with backgroundDurationSinceLastCrash := value }
      else state

/-- A duration may have been written as a whole number. -/
def onIntegerElement (name : Option Bytes) (value : Int64) : Callback δ Unit := do
  match name with
  | none => throw .invalidData
  | some name =>
    if name = kKeyFormatVersion.bytes then
      if value ≠ kFormatVersion then throw .invalidData
    else
      modify fun state =>
        if name = kKeyLaunchesSinceLastCrash.bytes then
          { state with launchesSinceLastCrash := value.toInt32 }
        else if name = kKeySessionsSinceLastCrash.bytes then
          { state with sessionsSinceLastCrash := value.toInt32 }
        else state
  onFloatingPointElement name (arithmetic.ofInt64 value)

def callbacks (name : Option Bytes) : Event δ → Callback δ Unit
  | .booleanElement value => onBooleanElement name value
  | .floatingPointElement value => onFloatingPointElement name value
  | .integerElement value => onIntegerElement arithmetic name value
  | _ => pure ()

/-- Of a file that is too long the end is read. -/
def readEntireFile (maxLength : Nat) (file : Bytes) : Bytes := file.drop (file.length - maxLength)

/-- What was decoded before an error stays in the state. -/
def loadState (stateFile : Option Bytes) (state : AppState δ) : AppState δ :=
  match stateFile with
  | none => state
  | some file =>
    endState (decode arithmetic.toDoubles (callbacks arithmetic) (readEntireFile 50000 file) 1000
      state)

/-! Writing. -/

/-- A duration from the start to the crash is known only in a launch that crashed. -/
def durationToCrash (state : AppState δ) (initializeTime now : δ) : δ :=
  if state.crashedThisLaunch then arithmetic.sub now initializeTime else arithmetic.zero

def writeState (state : AppState δ) (initializeTime now : δ) : Encode ω Unit := do
  beginObject none
  addIntegerElement (some kKeyFormatVersion.bytes) kFormatVersion
  addBooleanElement (some kKeyCrashedLastLaunch.bytes) state.crashedThisLaunch
  addFloatingPointElement arithmetic.toDoubles
    (some kKeyDurationFromCrashStateInitToLastCrash.bytes)
    (durationToCrash arithmetic state initializeTime now)
  addFloatingPointElement arithmetic.toDoubles (some kKeyActiveDurationSinceLastCrash.bytes)
    state.activeDurationSinceLastCrash
  addFloatingPointElement arithmetic.toDoubles (some kKeyBackgroundDurationSinceLastCrash.bytes)
    state.backgroundDurationSinceLastCrash
  addIntegerElement (some kKeyLaunchesSinceLastCrash.bytes) state.launchesSinceLastCrash.toInt64
  addIntegerElement (some kKeySessionsSinceLastCrash.bytes) state.sessionsSinceLastCrash.toInt64
  endEncode

/-- The contents of the file at the end of a save. -/
def saveState (state : AppState δ) (initializeTime now : δ) : Bytes :=
  (endState (writeState arithmetic state initializeTime now
    (beginEncode true collect []))).userData

/-! The monitor. -/

/-- The globals of the monitor. -/
structure Monitor (δ : Type) where
  state : AppState δ
  initializeTime : δ
  isEnabled : Bool

def crashstateInitialize (stateFile : Option Bytes) (now : δ) : Monitor δ where
  state := loadState arithmetic stateFile (AppState.cleared arithmetic)
  initializeTime := now
  isEnabled := false

/-- What is called on the monitor. -/
inductive Call where
  | setEnabled
  | notifyAppActive (isActive : Bool)
  | notifyAppInForeground (isInForeground : Bool)
  | notifyAppTerminate
  | notifyAppCrash
  deriving DecidableEq, Repr

def resetState (state : AppState δ) : AppState δ :=
  let state := { state with
    sessionsSinceLaunch := 1
    activeDurationSinceLaunch := arithmetic.zero
    backgroundDurationSinceLaunch := arithmetic.zero }
  let state := if state.crashedLastLaunch then { state with
      activeDurationSinceLastCrash := arithmetic.zero
      backgroundDurationSinceLastCrash := arithmetic.zero
      launchesSinceLastCrash := 0
      sessionsSinceLastCrash := 0 }
    else state
  { state with
    crashedThisLaunch := false
    launchesSinceLastCrash := state.launchesSinceLastCrash + 1
    sessionsSinceLastCrash := state.sessionsSinceLastCrash + 1
    applicationIsInForeground := true }

def activeState (state : AppState δ) (isActive : Bool) (now : δ) : AppState δ :=
  let state := { state with applicationIsActive := isActive }
  if isActive then { state with appStateTransitionTime := now }
  else
    let duration := arithmetic.sub now state.appStateTransitionTime
    { state with
      activeDurationSinceLaunch := arithmetic.add state.activeDurationSinceLaunch duration
      activeDurationSinceLastCrash :=
        arithmetic.add state.activeDurationSinceLastCrash duration }

def foregroundState (state : AppState δ) (isInForeground : Bool) (now : δ) : AppState δ :=
  let state := { state with applicationIsInForeground := isInForeground }
  if isInForeground then
    let duration := arithmetic.sub now state.appStateTransitionTime
    { state with
      backgroundDurationSinceLaunch :=
        arithmetic.add state.backgroundDurationSinceLaunch duration
      backgroundDurationSinceLastCrash :=
        arithmetic.add state.backgroundDurationSinceLastCrash duration
      sessionsSinceLastCrash := state.sessionsSinceLastCrash + 1
      sessionsSinceLaunch := state.sessionsSinceLaunch + 1 }
  else { state with appStateTransitionTime := now }

def terminateState (state : AppState δ) (now : δ) : AppState δ :=
  let duration := arithmetic.sub now state.appStateTransitionTime
  { state with
    backgroundDurationSinceLastCrash :=
      arithmetic.add state.backgroundDurationSinceLastCrash duration }

def crashState (state : AppState δ) (now : δ) : AppState δ :=
  let duration := arithmetic.sub now state.appStateTransitionTime
  let state := if state.applicationIsActive then { state with
      activeDurationSinceLaunch := arithmetic.add state.activeDurationSinceLaunch duration
      activeDurationSinceLastCrash :=
        arithmetic.add state.activeDurationSinceLastCrash duration }
    else if ¬state.applicationIsInForeground then { state with
      backgroundDurationSinceLaunch :=
        arithmetic.add state.backgroundDurationSinceLaunch duration
      backgroundDurationSinceLastCrash :=
        arithmetic.add state.backgroundDurationSinceLastCrash duration }
    else state
  { state with crashedThisLaunch := true }

/-- The monitor behind a call, and whether the call saves the state. -/
def Monitor.call (monitor : Monitor δ) (now : δ) : Call → Monitor δ × Bool
  | .setEnabled =>
    if monitor.isEnabled then (monitor, false)
    else ({ monitor with isEnabled := true, state := resetState arithmetic monitor.state }, true)
  | .notifyAppActive isActive =>
    if monitor.isEnabled then
      ({ monitor with state := activeState arithmetic monitor.state isActive now }, false)
    else (monitor, false)
  | .notifyAppInForeground isInForeground =>
    if monitor.isEnabled then
      ({ monitor with state := foregroundState arithmetic monitor.state isInForeground now },
        !isInForeground)
    else (monitor, false)
  | .notifyAppTerminate =>
    if monitor.isEnabled then
      ({ monitor with state := terminateState arithmetic monitor.state now }, true)
    else (monitor, false)
  | .notifyAppCrash =>
    if monitor.isEnabled then
      ({ monitor with state := crashState arithmetic monitor.state now }, true)
    else (monitor, false)

end SentryCocoa.AppStateMonitor
