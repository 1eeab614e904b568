import SentryCocoa.CrashHandling

/-! The handlers that the app has chosen. A monitor that is enabled keeps them, and they are back in
their places whenever it is not. -/
namespace SentryCocoa.CrashMonitors
open Library.Machine Library.Pointwise

variable {η : Type}

namespace SignalMonitor

/-- The choices of the app are in force, or they are saved. -/
def Keeps (chosen : Signal → Disposition η) (s : SignalMonitor η) : Prop :=
  if s.isEnabled then
    ∃ previous, s.previousSignalHandlers = some previous ∧ ∀ signal,
      (if isManaged s.isSigtermReportingEnabled signal then previous signal
        else s.dispositions signal) = .app (chosen signal)
  else ∀ signal, s.dispositions signal = .app (chosen signal)

variable {chosen : Signal → Disposition η} {s : SignalMonitor η}

theorem keeps_installSignalHandler (environment : Environment)
    (hstack : environment.signalStack = true)
    (h : ∀ signal, s.dispositions signal = .app (chosen signal)) :
    Keeps chosen ({ s with isEnabled := true }.installSignalHandler environment) := by
  have hentry (signal : Signal) := read_foldl_of_mem
    (assignHandler_local (η := η) s.isSigtermReportingEnabled) fatalSignals_nodup
    (mem_fatalSignals signal) (s.dispositions, s.previousSignalHandlers.getD fun _ => .uninitialized)
  simp only [installSignalHandler, hstack, if_true, Keeps]
  refine ⟨_, rfl, fun signal => ?_⟩
  have hsignal := hentry signal
  rw [Prod.ext_iff] at hsignal
  cases hmanaged : isManaged s.isSigtermReportingEnabled signal with
  | false =>
    rw [if_neg Bool.false_ne_true]
    refine hsignal.1.trans ?_
    simp [assigned, hmanaged, h signal]
  | true =>
    rw [if_pos rfl]
    refine hsignal.2.trans ?_
    simp [assigned, hmanaged, h signal]

theorem keeps_uninstallSignalHandler (hon : s.isEnabled = true) (h : Keeps chosen s) :
    Keeps chosen ({ s with isEnabled := false }.uninstallSignalHandler) := by
  rw [Keeps, if_pos hon] at h
  obtain ⟨previous, hprevious, hkept⟩ := h
  simp only [uninstallSignalHandler, hprevious, Keeps]
  intro signal
  refine (read_foldl_of_mem (restoreHandler_local _ previous) fatalSignals_nodup
    (mem_fatalSignals signal) s.dispositions).trans ?_
  exact hkept signal

theorem keeps_setEnabled (environment : Environment) {isEnabled : Bool}
    (hstack : isEnabled = true → environment.signalStack = true) (h : Keeps chosen s) :
    Keeps chosen (s.setEnabled environment isEnabled) := by
  rw [setEnabled]
  split
  · rename_i hchange
    cases isEnabled with
    | true =>
      have hoff : s.isEnabled = false := by simpa using hchange.symm
      rw [Keeps, hoff] at h
      exact keeps_installSignalHandler environment (hstack rfl) h
    | false =>
      have hon : s.isEnabled = true := by simpa using hchange.symm
      exact keeps_uninstallSignalHandler hon h
  · exact h

end SignalMonitor

namespace NSExceptionMonitor

def Keeps (chosen : Option η) (s : NSExceptionMonitor η) : Prop :=
  (if s.isEnabled then s.previousUncaughtExceptionHandler else s.uncaughtExceptionHandler) =
    chosen.map .app

theorem keeps_setEnabled {chosen : Option η} {s : NSExceptionMonitor η} (isEnabled : Bool)
    (h : Keeps chosen s) : Keeps chosen (s.setEnabled isEnabled) := by
  unfold Keeps at *
  cases hs : s.isEnabled <;> cases isEnabled <;> simp_all [setEnabled]

end NSExceptionMonitor

namespace CPPExceptionMonitor

def Keeps (chosen : Option η) (s : CPPExceptionMonitor η) : Prop :=
  (if s.isEnabled then s.originalTerminateHandler else s.terminateHandler) = chosen.map .app

theorem keeps_setEnabled {chosen : Option η} {s : CPPExceptionMonitor η} (isEnabled : Bool)
    (h : Keeps chosen s) : Keeps chosen (s.setEnabled isEnabled) := by
  unfold Keeps at *
  cases hs : s.isEnabled <;> cases isEnabled <;> simp_all [setEnabled]

end CPPExceptionMonitor

namespace Monitors

/-- What the monitors do not keep for the app is in its place. -/
structure Keeps (chosen : Chosen η) (s : Monitors η) : Prop where
  signal : s.signal.Keeps chosen.dispositions
  nsException : s.nsException.Keeps chosen.uncaughtExceptionHandler
  cppException : s.cppException.Keeps chosen.terminateHandler

variable {chosen : Chosen η} {s : Monitors η} {environment : Environment}

theorem Keeps.setActiveMonitors {monitorTypes : MonitorType} (h : s.Keeps chosen)
    (hstack : s.isRequested environment monitorTypes .signal = true →
      environment.signalStack = true) :
    (s.setActiveMonitors environment monitorTypes).Keeps chosen := by
  rw [setActiveMonitors_eq]
  exact {
    signal := SignalMonitor.keeps_setEnabled environment hstack h.signal
    nsException := NSExceptionMonitor.keeps_setEnabled _ h.nsException
    cppException := CPPExceptionMonitor.keeps_setEnabled _ h.cppException }

theorem Keeps.setActiveMonitors_typeNone (h : s.Keeps chosen) :
    (s.setActiveMonitors environment typeNone).Keeps chosen :=
  h.setActiveMonitors fun hrequested => by
    rw [isRequested_typeNone] at hrequested
    cases hrequested

theorem Keeps.notifyFatalExceptionCaptured (h : s.Keeps chosen) (isAsyncSafeEnvironment : Bool) :
    (s.notifyFatalExceptionCaptured environment isAsyncSafeEnvironment).Keeps chosen := by
  have hnoted : Keeps chosen (s.noted isAsyncSafeEnvironment) :=
    ⟨h.signal, h.nsException, h.cppException⟩
  rw [notifyFatalExceptionCaptured_eq]
  split
  · exact hnoted.setActiveMonitors_typeNone
  · exact hnoted

theorem Keeps.restoreOriginalHandlers (h : s.Keeps chosen) :
    (s.restoreOriginalHandlers environment).Keeps chosen := by
  unfold Monitors.restoreOriginalHandlers
  split
  · exact h.setActiveMonitors_typeNone
  · exact h

end Monitors

end SentryCocoa.CrashMonitors
