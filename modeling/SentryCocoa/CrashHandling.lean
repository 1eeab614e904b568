import SentryCocoa.CrashMonitors

/-! Crashes in a process. The handler of a crash runs statement by statement, on top of the handlers
that have been entered before it, since each of them can crash at any of its statements. The app
runs when no handler does: the others of its threads are suspended. -/
namespace SentryCocoa.CrashMonitors

variable {η : Type}

/-- What is trapped; an `NSException` can end in the terminate handler of C++ too. -/
inductive Source where
  | machException
  | signal (signal : Signal)
  | nsException
  | cppException (isNSException : Bool)
  deriving DecidableEq, Repr

inductive Statement where
  | notifyFatalExceptionCaptured (isAsyncSafeEnvironment : Bool)
  | activateSecondaryThread
  | fillContext
  | onExceptionEvent
  | restoreOriginalHandlers
  | endHandling
  | forward
  deriving DecidableEq, Repr

/-- The flags of `SentryCrash_MonitorContext`. -/
structure Context where
  crashedDuringCrashHandling : Bool
  requiresAsyncSafety : Bool
  deriving DecidableEq, Repr

/-- A handler that has been entered. -/
structure Frame where
  source : Source
  context : Context
  todo : List Statement
  deriving DecidableEq, Repr

/-- What goes on to a function of the app. -/
structure Forwarded (η : Type) where
  source : Source
  function : η
  deriving DecidableEq, Repr

/-- The handlers that the app has chosen last. -/
structure Chosen (η : Type) where
  dispositions : Signal → Disposition η
  uncaughtExceptionHandler : Option η
  terminateHandler : Option η

/-- What `SentryCrash` and `SentryCrashC` know; either has its own `monitoring`. -/
structure Installation where
  isInstalled : Bool
  g_monitoring : MonitorType
  monitoring : MonitorType
  monitoringWhenUninstalled : MonitorType
  monitoringFromUninstalledToRestore : Bool
  deriving DecidableEq, Repr

structure Process (η : Type) where
  monitors : Monitors η
  installation : Installation
  chosen : Chosen η
  hasEventCallback : Bool
  frames : List Frame
  contexts : List Context
  forwarded : List (Forwarded η)
  calledNull : Bool
  isTerminated : Bool

inductive Input (η : Type) where
  | install (environment : Environment)
  | uninstall (environment : Environment)
  | setMonitoring (monitors : MonitorType) (environment : Environment)
  | setEnableSigtermReporting (enabled : Bool)
  | sigaction (signal : Signal) (disposition : Disposition η)
  | setUncaughtExceptionHandler (handler : Option η)
  | setTerminate (handler : Option η)
  | trap (source : Source)
  | proceed (environment : Environment)

namespace Process

/-- A process in which `SentryCrash` has been made. -/
def launched (chosen : Chosen η) : Process η where
  monitors := {
    machException := ⟨false, false, false, none, .none, .none, .app⟩
    signal := ⟨false, false, none, fun signal => .app (chosen.dispositions signal)⟩
    nsException := ⟨false, false, none, chosen.uncaughtExceptionHandler.map .app⟩
    cppException := ⟨false, false, none, chosen.terminateHandler.map .app⟩
    applicationState := false
    activeMonitors := typeNone
    handlingFatalException := false
    crashedDuringExceptionHandling := false
    requiresAsyncSafety := false }
  installation := ⟨false, typeAll, typeAll, typeNone, false⟩
  chosen := chosen
  hasEventCallback := false
  frames := []
  contexts := []
  forwarded := []
  calledNull := false
  isTerminated := false

/-! The installation. -/

/-- `sentrycrash_setMonitoring`, with what it returns kept. -/
def setMonitoring (environment : Environment) (s : Process η) (monitors : MonitorType) :
    Process η :=
  if s.installation.isInstalled then
    let activated := s.monitors.setActiveMonitors environment monitors
    { s with
      monitors := activated
      installation := { s.installation with
        g_monitoring := monitors
        monitoring := activated.activeMonitors } }
  else
    { s with
      installation := { s.installation with
        g_monitoring := monitors
        monitoring := monitors } }

/-- What was monitored when it was uninstalled is monitored again. -/
def restoreMonitoring (environment : Environment) (s : Process η) : Process η :=
  if s.installation.monitoringFromUninstalledToRestore ∧
      s.installation.monitoringWhenUninstalled ≠ typeNone then
    let s := s.setMonitoring environment s.installation.monitoringWhenUninstalled
    { s with
      installation := { s.installation with
        monitoringWhenUninstalled := typeNone
        monitoringFromUninstalledToRestore := false } }
  else s

def sentrycrashInstall (environment : Environment) (s : Process η) : Process η :=
  if s.installation.isInstalled then
    { s with
      installation := { s.installation with monitoring := s.installation.g_monitoring } }
  else
    { s with
      installation := { s.installation with isInstalled := true }
      hasEventCallback := true }.setMonitoring environment s.installation.g_monitoring

def install (environment : Environment) (s : Process η) : Process η :=
  (s.restoreMonitoring environment).sentrycrashInstall environment

def uninstall (environment : Environment) (s : Process η) : Process η :=
  let monitoring := s.installation.monitoring
  let s := s.setMonitoring environment typeNone
  { s with
    installation := { s.installation with
      isInstalled := false
      monitoringWhenUninstalled := monitoring
      monitoringFromUninstalledToRestore := true }
    hasEventCallback := false }

/-! The handlers. -/

/-- What every handler does with a crash that it reports. -/
def handleException (isAsyncSafeEnvironment : Bool) (before after : List Statement) :
    List Statement :=
  .notifyFatalExceptionCaptured isAsyncSafeEnvironment :: before ++
    [.fillContext, .onExceptionEvent, .restoreOriginalHandlers] ++ after ++ [.forward]

def enter (s : Process η) (source : Source) (todo : List Statement) : Process η :=
  { s with frames := ⟨source, ⟨false, false⟩, todo⟩ :: s.frames }

/-- The message goes to a thread that waits for one. -/
def trapMachException (s : Process η) : Option (Process η) :=
  let mach := s.monitors.machException
  let handling := { mach with isHandlingCrash := mach.isHandlingCrash || mach.isEnabled }
  if mach.exceptionPorts ≠ .monitor then none
  else if mach.primary = .waiting then
    some ({ s with monitors := { s.monitors with
      machException := { handling with primary := .done } } }.enter .machException
        (if mach.isEnabled then
          handleException true [.activateSecondaryThread] [.endHandling]
        else [.forward]))
  else if mach.secondary = .waiting then
    some ({ s with monitors := { s.monitors with
      machException := { handling with secondary := .done } } }.enter .machException
        (if mach.isEnabled then handleException true [] [.endHandling] else [.forward]))
  else none

def handleSignal (s : Process η) (signal : Signal) : Process η :=
  s.enter (.signal signal)
    (if s.monitors.signal.isEnabled then handleException false [] [] else [.forward])

def handleUncaughtException (s : Process η) : Process η :=
  if s.monitors.nsException.isEnabled then s.enter .nsException (handleException false [] [])
  else s

/-- An `NSException` is left to its own handler. -/
def terminate (s : Process η) (isNSException : Bool) : Process η :=
  s.enter (.cppException isNSException)
    (if isNSException then [.forward] else handleException false [] [])

/-- A crash that is trapped by a handler of a monitor. -/
def trap (s : Process η) : Source → Option (Process η)
  | .machException => s.trapMachException
  | .signal signal =>
    match s.monitors.signal.dispositions signal with
    | .handleSignal => some (s.handleSignal signal)
    | _ => none
  | .nsException =>
    match s.monitors.nsException.uncaughtExceptionHandler with
    | some .monitor => some s.handleUncaughtException
    | _ => if s.monitors.nsException.isGivenToReporter then some s.handleUncaughtException else none
  | .cppException isNSException =>
    match s.monitors.cppException.terminateHandler with
    | some .monitor => some (s.terminate isNSException)
    | _ => none

/-- The call of a function that was there before. -/
def callHook (s : Process η) (source : Source) (again : Process η → Process η) :
    Option (Hook η) → Process η
  | none => s
  | some (.app function) => { s with forwarded := s.forwarded ++ [⟨source, function⟩] }
  | some .monitor => again s

/-- What is done after the handler; a signal is raised again. -/
def forward (s : Process η) : Source → Option (Process η)
  | .machException => some s
  | .signal signal =>
    match s.monitors.signal.dispositions signal with
    | .app .sigDfl => some { s with isTerminated := true }
    | .app .sigIgn => some s
    | .app (.handler function) =>
      some { s with forwarded := s.forwarded ++ [⟨.signal signal, function⟩] }
    | .handleSignal => some (s.handleSignal signal)
    | .uninitialized => none
  | .nsException =>
    some (s.callHook .nsException handleUncaughtException
      s.monitors.nsException.previousUncaughtExceptionHandler)
  | .cppException isNSException =>
    some (s.callHook (.cppException isNSException) (terminate · isNSException)
      s.monitors.cppException.originalTerminateHandler)

def activateSecondaryThread (s : MachException) : MachException :=
  let s := s.restoreExceptionPorts
  { s with secondary := if s.secondary = .suspended then .waiting else s.secondary }

/-- The next statement of the handler on top. -/
def execute (environment : Environment) (s : Process η) (frame : Frame) (rest : List Frame) :
    Statement → Option (Process η)
  | .notifyFatalExceptionCaptured isAsyncSafeEnvironment =>
    some { s with
      monitors := s.monitors.notifyFatalExceptionCaptured environment isAsyncSafeEnvironment
      frames := frame :: rest }
  | .activateSecondaryThread =>
    some { s with
      monitors := { s.monitors with
        machException := activateSecondaryThread s.monitors.machException }
      frames := frame :: rest }
  | .fillContext =>
    let context : Context := {
      crashedDuringCrashHandling :=
        frame.context.crashedDuringCrashHandling || s.monitors.crashedDuringExceptionHandling
      requiresAsyncSafety := s.monitors.requiresAsyncSafety }
    some { s with frames := { frame with context := context } :: rest }
  | .onExceptionEvent =>
    if s.hasEventCallback then
      some { s with contexts := s.contexts ++ [frame.context], frames := frame :: rest }
    else some { s with calledNull := true, frames := frame :: rest }
  | .restoreOriginalHandlers =>
    some { s with
      monitors := s.monitors.restoreOriginalHandlers environment
      frames := frame :: rest }
  | .endHandling =>
    some { s with
      monitors := { s.monitors with
        machException := { s.monitors.machException with isHandlingCrash := false } }
      frames := frame :: rest }
  | .forward => { s with frames := rest }.forward frame.source

def proceed (environment : Environment) (s : Process η) : Option (Process η) :=
  match s.frames with
  | [] => none
  | frame :: rest =>
    match frame.todo with
    | [] => none
    | statement :: todo => s.execute environment { frame with todo := todo } rest statement

/-- A call of the app, which runs when no handler does. -/
def appCall (s : Process η) : Input η → Option (Process η)
  | .install environment => some (s.install environment)
  | .uninstall environment => some (s.uninstall environment)
  | .setMonitoring monitors environment => some (s.setMonitoring environment monitors)
  | .setEnableSigtermReporting enabled =>
    some { s with monitors := { s.monitors with
      signal := { s.monitors.signal with isSigtermReportingEnabled := enabled } } }
  | .sigaction signal disposition =>
    some { s with
      monitors := { s.monitors with
        signal := { s.monitors.signal with
          dispositions := Function.update s.monitors.signal.dispositions signal
            (.app disposition) } }
      chosen := { s.chosen with
        dispositions := Function.update s.chosen.dispositions signal disposition } }
  | .setUncaughtExceptionHandler handler =>
    some { s with
      monitors := { s.monitors with
        nsException := { s.monitors.nsException with
          uncaughtExceptionHandler := handler.map .app } }
      chosen := { s.chosen with uncaughtExceptionHandler := handler } }
  | .setTerminate handler =>
    some { s with
      monitors := { s.monitors with
        cppException := { s.monitors.cppException with terminateHandler := handler.map .app } }
      chosen := { s.chosen with terminateHandler := handler } }
  | _ => none

def step (s : Process η) (input : Input η) : Option (Process η) :=
  if s.isTerminated then none
  else
    match input with
    | .trap source => s.trap source
    | .proceed environment => s.proceed environment
    | input => if s.frames.isEmpty then s.appCall input else none

end Process

end SentryCocoa.CrashMonitors
