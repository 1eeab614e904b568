import Mathlib.Logic.Function.Basic
import SentryCocoa.Library.Machine
import SentryCocoa.Library.Pointwise

/-! The monitors of crashes. Each puts a handler of its own in the place of one of the process and
is to put that one back. A crash is reported by the handler that traps it, and the code that writes
the report can crash as well. -/
namespace SentryCocoa.CrashMonitors
open Library.Pointwise

/-- The flags of `SentryCrashMonitorType`. -/
abbrev MonitorType := BitVec 32

inductive Monitor where
  | machException
  | signal
  | nsException
  | cppException
  | applicationState
  deriving DecidableEq, Repr

def Monitor.monitorType : Monitor → MonitorType
  | .machException => 0x01
  | .signal => 0x02
  | .cppException => 0x04
  | .nsException => 0x08
  | .applicationState => 0x80

def typeNone : MonitorType := 0

def typeAll : MonitorType := 0x01 ||| 0x02 ||| 0x04 ||| 0x08 ||| 0x80

def typeDebuggerUnsafe : MonitorType := 0x01 ||| 0x02 ||| 0x04 ||| 0x08

def typeDebuggerSafe : MonitorType := typeAll &&& ~~~typeDebuggerUnsafe

def typeAsyncSafe : MonitorType := 0x01 ||| 0x02

def typeAsyncUnsafe : MonitorType := typeAll &&& ~~~typeAsyncSafe

/-- `g_monitors` where both Mach and signals are there. -/
def g_monitors : List Monitor :=
  [.machException, .signal, .nsException, .cppException, .applicationState]

/-! The handlers of the process. -/

/-- `sentrycrashsignal_fatalSignals` names each of them. -/
inductive Signal where
  | sigabrt
  | sigbus
  | sigfpe
  | sigill
  | sigpipe
  | sigsegv
  | sigsys
  | sigtrap
  | sigterm
  deriving DecidableEq, Repr

def fatalSignals : List Signal :=
  [.sigabrt, .sigbus, .sigfpe, .sigill, .sigpipe, .sigsegv, .sigsys, .sigtrap, .sigterm]

/-- What the app does with a signal; `η` are its functions. -/
inductive Disposition (η : Type) where
  | sigDfl
  | sigIgn
  | handler (function : η)
  deriving DecidableEq, Repr

/-- What `sigaction` can find or set; memory from `malloc` holds no action. -/
inductive Action (η : Type) where
  | app (disposition : Disposition η)
  | handleSignal
  | uninitialized
  deriving DecidableEq, Repr

/-- Whether `sa_handler` is `SIG_IGN`. -/
def Action.isSigIgn {η : Type} : Action η → Bool
  | .app .sigIgn => true
  | _ => false

/-- A function of the app, or the handler of the monitor. -/
inductive Hook (η : Type) where
  | app (function : η)
  | monitor
  deriving DecidableEq, Repr

/-- Whom the kernel sends the Mach exceptions of the task. -/
inductive Ports where
  | app
  | monitor
  deriving DecidableEq, Repr

/-! The monitors, each with what it changes of the process. -/

variable {η : Type}

/-- How far `installExceptionHandler` gets. -/
inductive MachInstall where
  | noBackup
  | noPort
  | noThread
  | installed
  deriving DecidableEq, Repr

/-- What the system answers in a call. -/
structure Environment where
  isBeingTraced : Bool
  signalStack : Bool
  mach : MachInstall
  deriving DecidableEq, Repr

/-- A thread with `handleExceptions`, which takes one message. -/
inductive HandlerThread where
  | none
  | suspended
  | waiting
  | done
  deriving DecidableEq, Repr

structure MachException where
  isEnabled : Bool
  isInstalled : Bool
  isHandlingCrash : Bool
  previousExceptionPorts : Option Ports
  primary : HandlerThread
  secondary : HandlerThread
  exceptionPorts : Ports
  deriving DecidableEq, Repr

namespace MachException

def restoreExceptionPorts (s : MachException) : MachException :=
  match s.previousExceptionPorts with
  | none => s
  | some ports => { s with exceptionPorts := ports, previousExceptionPorts := none }

def uninstallExceptionHandler (s : MachException) : MachException :=
  { s.restoreExceptionPorts with primary := .none, secondary := .none }

def installExceptionHandler (s : MachException) : MachInstall → MachException × Bool
  | .noBackup => (s.uninstallExceptionHandler, false)
  | .noPort =>
    ({ s with previousExceptionPorts := some s.exceptionPorts }.uninstallExceptionHandler, false)
  | .noThread =>
    ({ s with
      previousExceptionPorts := some s.exceptionPorts
      exceptionPorts := .monitor
      secondary := .suspended }.uninstallExceptionHandler, false)
  | .installed =>
    ({ s with
      previousExceptionPorts := some s.exceptionPorts
      exceptionPorts := .monitor
      secondary := .suspended
      primary := .waiting
      isInstalled := true }, true)

/-- The handler stays installed once it is. -/
def setEnabled (environment : Environment) (isEnabled : Bool) (s : MachException) :
    MachException :=
  let s := { s with isEnabled := isEnabled }
  if s.isEnabled ∧ ¬s.isInstalled then
    let installed := s.installExceptionHandler environment.mach
    { installed.1 with isEnabled := installed.2 }
  else s

end MachException

/-- `previousSignalHandlers` is `NULL` before its memory is allocated. -/
structure SignalMonitor (η : Type) where
  isEnabled : Bool
  isSigtermReportingEnabled : Bool
  previousSignalHandlers : Option (Signal → Action η)
  dispositions : Signal → Action η

namespace SignalMonitor

/-- One iteration in `installSignalHandler`. A signal that was ignored stays ignored. -/
def assignHandler (reporting : Bool) (handlers : (Signal → Action η) × (Signal → Action η))
    (signal : Signal) : (Signal → Action η) × (Signal → Action η) :=
  if signal = .sigterm ∧ ¬reporting then handlers
  else
    let previous := Function.update handlers.2 signal (handlers.1 signal)
    let assigned := Function.update handlers.1 signal .handleSignal
    if (previous signal).isSigIgn then
      (Function.update assigned signal (previous signal), previous)
    else (assigned, previous)

def installSignalHandler (environment : Environment) (s : SignalMonitor η) : SignalMonitor η :=
  if environment.signalStack then
    let previous := s.previousSignalHandlers.getD fun _ => .uninitialized
    let handlers := fatalSignals.foldl (assignHandler s.isSigtermReportingEnabled)
      (s.dispositions, previous)
    { s with dispositions := handlers.1, previousSignalHandlers := some handlers.2 }
  else s

/-- One iteration in `uninstallSignalHandler`. -/
def restoreHandler (reporting : Bool) (previous : Signal → Action η)
    (dispositions : Signal → Action η) (signal : Signal) : Signal → Action η :=
  if signal = .sigterm ∧ ¬reporting then dispositions
  else Function.update dispositions signal (previous signal)

/-- Without a table `sigaction` is given no action to set. -/
def uninstallSignalHandler (s : SignalMonitor η) : SignalMonitor η :=
  match s.previousSignalHandlers with
  | none => s
  | some previous =>
    { s with
      dispositions := fatalSignals.foldl
        (restoreHandler s.isSigtermReportingEnabled previous) s.dispositions }

def setEnabled (environment : Environment) (isEnabled : Bool) (s : SignalMonitor η) :
    SignalMonitor η :=
  if isEnabled ≠ s.isEnabled then
    let s := { s with isEnabled := isEnabled }
    if isEnabled then s.installSignalHandler environment else s.uninstallSignalHandler
  else s

/-! What the loops over the signals do. -/

/-- Whether the loops have an iteration for the signal that does something. -/
def isManaged (reporting : Bool) (signal : Signal) : Bool := signal != .sigterm || reporting

theorem fatalSignals_nodup : fatalSignals.Nodup := by decide

theorem mem_fatalSignals (signal : Signal) : signal ∈ fatalSignals := by
  cases signal <;> decide

theorem skipped_iff (reporting : Bool) (signal : Signal) :
    (signal = .sigterm ∧ ¬reporting = true) ↔ isManaged reporting signal = false := by
  cases reporting <;> simp [isManaged]

theorem assignHandler_of_unmanaged {reporting : Bool} {signal : Signal}
    (h : isManaged reporting signal = false)
    (handlers : (Signal → Action η) × (Signal → Action η)) :
    assignHandler reporting handlers signal = handlers :=
  if_pos ((skipped_iff reporting signal).mpr h)

theorem assignHandler_of_managed {reporting : Bool} {signal : Signal}
    (h : isManaged reporting signal = true)
    (handlers : (Signal → Action η) × (Signal → Action η)) :
    assignHandler reporting handlers signal =
      (Function.update handlers.1 signal
        (if (handlers.1 signal).isSigIgn then handlers.1 signal else .handleSignal),
      Function.update handlers.2 signal (handlers.1 signal)) := by
  have hskip : ¬(signal = .sigterm ∧ ¬reporting = true) := by
    rw [skipped_iff, h]
    decide
  simp only [assignHandler, if_neg hskip, Function.update_self, Function.update_idem]
  split <;> rfl

/-- The entry of a signal, and what was saved for it. -/
def assigned (reporting : Bool) (signal : Signal) (entry : Action η × Action η) :
    Action η × Action η :=
  if isManaged reporting signal then
    (if entry.1.isSigIgn then entry.1 else .handleSignal, entry.1)
  else entry

theorem assignHandler_local (reporting : Bool) :
    Local (fun handlers signal => (handlers.1 signal, handlers.2 signal))
      (assignHandler (η := η) reporting) (assigned reporting) where
  self handlers signal := by
    cases h : isManaged reporting signal with
    | false => simp [assignHandler_of_unmanaged h, assigned, h]
    | true => simp [assignHandler_of_managed h, assigned, h, Function.update_self]
  other handlers signal other hne := by
    cases h : isManaged reporting signal with
    | false => rw [assignHandler_of_unmanaged h]
    | true => simp [assignHandler_of_managed h, Function.update_of_ne hne]

theorem restoreHandler_local (reporting : Bool) (previous : Signal → Action η) :
    Local (fun (dispositions : Signal → Action η) signal => dispositions signal)
      (restoreHandler reporting previous)
      (fun signal action => if isManaged reporting signal then previous signal else action) where
  self dispositions signal := by
    simp only [restoreHandler, skipped_iff]
    cases isManaged reporting signal <;> simp [Function.update_self]
  other dispositions signal other hne := by
    simp only [restoreHandler, skipped_iff]
    cases isManaged reporting signal <;> simp [Function.update_of_ne hne]

@[simp] theorem isEnabled_installSignalHandler (environment : Environment)
    (s : SignalMonitor η) : (s.installSignalHandler environment).isEnabled = s.isEnabled := by
  unfold installSignalHandler
  split <;> rfl

@[simp] theorem isEnabled_uninstallSignalHandler (s : SignalMonitor η) :
    s.uninstallSignalHandler.isEnabled = s.isEnabled := by
  unfold uninstallSignalHandler
  split <;> rfl

theorem isEnabled_setEnabled (environment : Environment) (isEnabled : Bool)
    (s : SignalMonitor η) : (s.setEnabled environment isEnabled).isEnabled = isEnabled := by
  unfold setEnabled
  split
  · split <;> simp
  · simp_all

end SignalMonitor

/-- `isGivenToReporter` is whether the crash reporter has the handler as well. -/
structure NSExceptionMonitor (η : Type) where
  isEnabled : Bool
  isGivenToReporter : Bool
  previousUncaughtExceptionHandler : Option (Hook η)
  uncaughtExceptionHandler : Option (Hook η)
  deriving DecidableEq, Repr

namespace NSExceptionMonitor

def setEnabled (isEnabled : Bool) (s : NSExceptionMonitor η) : NSExceptionMonitor η :=
  if isEnabled ≠ s.isEnabled then
    if isEnabled then
      { isEnabled := isEnabled
        isGivenToReporter := true
        previousUncaughtExceptionHandler := s.uncaughtExceptionHandler
        uncaughtExceptionHandler := some .monitor }
    else
      { s with
        isEnabled := isEnabled
        uncaughtExceptionHandler := s.previousUncaughtExceptionHandler }
  else s

theorem isEnabled_setEnabled (isEnabled : Bool) (s : NSExceptionMonitor η) :
    (s.setEnabled isEnabled).isEnabled = isEnabled := by
  unfold setEnabled
  split
  · split <;> rfl
  · simp_all

end NSExceptionMonitor

structure CPPExceptionMonitor (η : Type) where
  isEnabled : Bool
  captureNextStackTrace : Bool
  originalTerminateHandler : Option (Hook η)
  terminateHandler : Option (Hook η)
  deriving DecidableEq, Repr

namespace CPPExceptionMonitor

def setEnabled (isEnabled : Bool) (s : CPPExceptionMonitor η) : CPPExceptionMonitor η :=
  if isEnabled ≠ s.isEnabled then
    if isEnabled then
      { isEnabled := isEnabled
        captureNextStackTrace := isEnabled
        originalTerminateHandler := s.terminateHandler
        terminateHandler := some .monitor }
    else
      { isEnabled := isEnabled
        captureNextStackTrace := isEnabled
        originalTerminateHandler := none
        terminateHandler := s.originalTerminateHandler }
  else s

theorem isEnabled_setEnabled (isEnabled : Bool) (s : CPPExceptionMonitor η) :
    (s.setEnabled isEnabled).isEnabled = isEnabled := by
  unfold setEnabled
  split
  · split <;> rfl
  · simp_all

end CPPExceptionMonitor

/-! All monitors. -/

structure Monitors (η : Type) where
  machException : MachException
  signal : SignalMonitor η
  nsException : NSExceptionMonitor η
  cppException : CPPExceptionMonitor η
  applicationState : Bool
  activeMonitors : MonitorType
  handlingFatalException : Bool
  crashedDuringExceptionHandling : Bool
  requiresAsyncSafety : Bool

namespace Monitors

def setMonitorEnabled (environment : Environment) (s : Monitors η) (isEnabled : Bool) :
    Monitor → Monitors η
  | .machException =>
    { s with machException := s.machException.setEnabled environment isEnabled }
  | .signal => { s with signal := s.signal.setEnabled environment isEnabled }
  | .nsException => { s with nsException := s.nsException.setEnabled isEnabled }
  | .cppException => { s with cppException := s.cppException.setEnabled isEnabled }
  | .applicationState => { s with applicationState := isEnabled }

def isMonitorEnabled (s : Monitors η) : Monitor → Bool
  | .machException => s.machException.isEnabled
  | .signal => s.signal.isEnabled
  | .nsException => s.nsException.isEnabled
  | .cppException => s.cppException.isEnabled
  | .applicationState => s.applicationState

/-- The types that are left of those to be activated. -/
def maskedTypes (environment : Environment) (s : Monitors η) (monitorTypes : MonitorType) :
    MonitorType :=
  let monitorTypes :=
    if environment.isBeingTraced ∧ monitorTypes &&& typeDebuggerUnsafe ≠ 0 then
      monitorTypes &&& typeDebuggerSafe
    else monitorTypes
  if s.requiresAsyncSafety ∧ monitorTypes &&& typeAsyncUnsafe ≠ 0 then
    monitorTypes &&& typeAsyncSafe
  else monitorTypes

/-- One iteration in `sentrycrashcm_setActiveMonitors`. -/
def activate (environment : Environment) (monitorTypes : MonitorType)
    (s : Monitors η × MonitorType) (monitor : Monitor) : Monitors η × MonitorType :=
  let isEnabled := decide (monitor.monitorType &&& monitorTypes ≠ 0)
  let monitors := s.1.setMonitorEnabled environment isEnabled monitor
  if monitors.isMonitorEnabled monitor then (monitors, s.2 ||| monitor.monitorType)
  else (monitors, s.2 &&& ~~~monitor.monitorType)

def setActiveMonitors (environment : Environment) (s : Monitors η) (monitorTypes : MonitorType) :
    Monitors η :=
  let activated := g_monitors.foldl
    (activate environment (s.maskedTypes environment monitorTypes)) (s, typeNone)
  { activated.1 with activeMonitors := activated.2 }

def notifyFatalExceptionCaptured (environment : Environment) (s : Monitors η)
    (isAsyncSafeEnvironment : Bool) : Monitors η :=
  let s := { s with requiresAsyncSafety := s.requiresAsyncSafety || isAsyncSafeEnvironment }
  let s := { s with
    crashedDuringExceptionHandling := s.crashedDuringExceptionHandling || s.handlingFatalException
    handlingFatalException := true }
  if s.crashedDuringExceptionHandling then s.setActiveMonitors environment typeNone else s

/-- The end of `sentrycrashcm_handleException`. -/
def restoreOriginalHandlers (environment : Environment) (s : Monitors η) : Monitors η :=
  if s.handlingFatalException ∧ ¬s.crashedDuringExceptionHandling then
    s.setActiveMonitors environment typeNone
  else s

/-! What activating the monitors does. -/

theorem activate_fst (environment : Environment) (monitorTypes : MonitorType)
    (s : Monitors η × MonitorType) (monitor : Monitor) :
    (activate environment monitorTypes s monitor).1 = s.1.setMonitorEnabled environment
      (decide (monitor.monitorType &&& monitorTypes ≠ 0)) monitor := by
  simp only [activate, apply_ite Prod.fst, ite_self]

theorem foldl_activate_fst (environment : Environment) (monitorTypes : MonitorType)
    (monitors : List Monitor) (s : Monitors η × MonitorType) :
    (monitors.foldl (activate environment monitorTypes) s).1 =
      monitors.foldl (fun s monitor => s.setMonitorEnabled environment
        (decide (monitor.monitorType &&& monitorTypes ≠ 0)) monitor) s.1 := by
  induction monitors generalizing s with
  | nil => rfl
  | cons monitor rest ih => rw [List.foldl_cons, List.foldl_cons, ih, activate_fst]

/-- Whether the monitor is to be enabled by the call. -/
def isRequested (environment : Environment) (s : Monitors η) (monitorTypes : MonitorType)
    (monitor : Monitor) : Bool :=
  decide (monitor.monitorType &&& s.maskedTypes environment monitorTypes ≠ 0)

variable (environment : Environment) (s : Monitors η) (monitorTypes : MonitorType)

/-- All that a call changes. -/
theorem setActiveMonitors_eq :
    s.setActiveMonitors environment monitorTypes =
      { s with
        machException := s.machException.setEnabled environment
          (s.isRequested environment monitorTypes .machException)
        signal := s.signal.setEnabled environment
          (s.isRequested environment monitorTypes .signal)
        nsException := s.nsException.setEnabled
          (s.isRequested environment monitorTypes .nsException)
        cppException := s.cppException.setEnabled
          (s.isRequested environment monitorTypes .cppException)
        applicationState := s.isRequested environment monitorTypes .applicationState
        activeMonitors := (s.setActiveMonitors environment monitorTypes).activeMonitors } := by
  have hfold := foldl_activate_fst environment (s.maskedTypes environment monitorTypes)
    g_monitors (s, typeNone)
  conv_lhs => rw [setActiveMonitors, hfold]
  rfl

theorem maskedTypes_typeNone : s.maskedTypes environment typeNone = typeNone := by
  simp [maskedTypes, typeNone]

@[simp] theorem isRequested_typeNone (monitor : Monitor) :
    s.isRequested environment typeNone monitor = false := by
  have hzero : monitor.monitorType &&& typeNone = 0 := BitVec.and_zero
  rw [isRequested, maskedTypes_typeNone, hzero]
  rfl

@[simp] theorem isMonitorEnabled_setActiveMonitors_typeNone (monitor : Monitor) :
    (s.setActiveMonitors environment typeNone).isMonitorEnabled monitor = false := by
  rw [setActiveMonitors_eq]
  simp only [isRequested_typeNone]
  cases monitor with
  | machException => rfl
  | signal => exact SignalMonitor.isEnabled_setEnabled environment false s.signal
  | nsException => exact NSExceptionMonitor.isEnabled_setEnabled false s.nsException
  | cppException => exact CPPExceptionMonitor.isEnabled_setEnabled false s.cppException
  | applicationState => rfl

/-- The flags after a crash has been noticed. -/
def noted (isAsyncSafeEnvironment : Bool) : Monitors η :=
  { s with
    requiresAsyncSafety := s.requiresAsyncSafety || isAsyncSafeEnvironment
    crashedDuringExceptionHandling := s.crashedDuringExceptionHandling || s.handlingFatalException
    handlingFatalException := true }

theorem notifyFatalExceptionCaptured_eq (isAsyncSafeEnvironment : Bool) :
    s.notifyFatalExceptionCaptured environment isAsyncSafeEnvironment =
      if s.crashedDuringExceptionHandling || s.handlingFatalException then
        (s.noted isAsyncSafeEnvironment).setActiveMonitors environment typeNone
      else s.noted isAsyncSafeEnvironment := rfl

end Monitors

end SentryCocoa.CrashMonitors
