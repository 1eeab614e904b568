import SentryCocoa.CrashHandlingSafety

/-! The handlers of the app over whole runs. -/
namespace SentryCocoa.CrashMonitors
open Library.Machine

variable {η : Type}

/-- The app changes a handler, and the reporting of SIGTERM, only while the monitor is off that
would keep it, and the system has memory for the stack of the signal handlers. -/
def isOrderly (s : Process η) : Input η → Bool
  | .install environment => environment.signalStack
  | .setMonitoring _ environment => environment.signalStack
  | .setEnableSigtermReporting _ => !s.monitors.signal.isEnabled
  | .sigaction _ _ => !s.monitors.signal.isEnabled
  | .setUncaughtExceptionHandler _ => !s.monitors.nsException.isEnabled
  | .setTerminate _ => !s.monitors.cppException.isEnabled
  | _ => true

namespace Process

variable {s s' : Process η}

/-- The monitors keep for the app what they have taken. -/
def Keeps (s : Process η) : Prop := s.monitors.Keeps s.chosen

theorem Keeps.install {environment : Environment} (h : Keeps s)
    (hstack : environment.signalStack = true) : Keeps (s.install environment) := by
  have hchosen := (install_record environment s).chosen
  unfold Keeps
  rw [hchosen]
  exact @install_keeps η s environment (fun monitors => monitors.Keeps s.chosen)
    (fun _ _ hkept => hkept.setActiveMonitors fun _ => hstack) h

theorem Keeps.setMonitoring {environment : Environment} (h : Keeps s)
    (hstack : environment.signalStack = true) (monitors : MonitorType) :
    Keeps (s.setMonitoring environment monitors) := by
  have hchosen := (setMonitoring_record environment s monitors).chosen
  unfold Keeps
  rw [hchosen]
  exact @setMonitoring_keeps η s environment (fun monitors => monitors.Keeps s.chosen)
    (fun _ _ hkept => hkept.setActiveMonitors fun _ => hstack) h monitors

theorem Keeps.uninstall {environment : Environment} (h : Keeps s) :
    Keeps (s.uninstall environment) := by
  have hchosen := (uninstall_record environment s).chosen
  unfold Keeps
  rw [hchosen]
  change (s.setMonitoring environment typeNone).monitors.Keeps s.chosen
  unfold Process.setMonitoring
  split
  · exact h.setActiveMonitors_typeNone
  · exact h

theorem Keeps.appCall {input : Input η} (h : Keeps s) (horderly : isOrderly s input = true)
    (call : s.appCall input = some s') : Keeps s' := by
  cases input with
  | install environment =>
    cases call
    exact h.install horderly
  | uninstall environment =>
    cases call
    exact h.uninstall
  | setMonitoring monitors environment =>
    cases call
    exact h.setMonitoring horderly monitors
  | setEnableSigtermReporting enabled =>
    cases call
    have hoff : s.monitors.signal.isEnabled = false := by simpa [isOrderly] using horderly
    refine ⟨?_, h.nsException, h.cppException⟩
    have hsignal := h.signal
    simp only [SignalMonitor.Keeps, hoff] at hsignal ⊢
    exact hsignal
  | sigaction signal disposition =>
    cases call
    have hoff : s.monitors.signal.isEnabled = false := by simpa [isOrderly] using horderly
    refine ⟨?_, h.nsException, h.cppException⟩
    have hsignal := h.signal
    simp only [SignalMonitor.Keeps, hoff] at hsignal ⊢
    intro other
    by_cases hother : other = signal
    · subst hother
      simp only [Function.update_self]
    · simp only [Function.update_of_ne hother]
      exact hsignal other
  | setUncaughtExceptionHandler handler =>
    cases call
    have hoff : s.monitors.nsException.isEnabled = false := by simpa [isOrderly] using horderly
    refine ⟨h.signal, ?_, h.cppException⟩
    simp [NSExceptionMonitor.Keeps, hoff]
  | setTerminate handler =>
    cases call
    have hoff : s.monitors.cppException.isEnabled = false := by simpa [isOrderly] using horderly
    refine ⟨h.signal, h.nsException, ?_⟩
    simp [CPPExceptionMonitor.Keeps, hoff]
  | trap source => cases call
  | proceed environment => cases call

theorem Keeps.enters (h : Keeps s) (henters : Enters s s') : Keeps s' := by
  cases henters with
  | silently mach source same silent => exact ⟨h.signal, h.nsException, h.cppException⟩
  | reporting mach source todo isAsyncSafeEnvironment same armed first ordered =>
    exact ⟨h.signal, h.nsException, h.cppException⟩

theorem Keeps.statement {environment : Environment} {frame : Frame} {rest : List Frame}
    {statement : Statement} (h : Keeps s) (continues : statement ≠ .forward)
    (executed : s.execute environment frame rest statement = some s') : Keeps s' := by
  cases statement with
  | notifyFatalExceptionCaptured isAsyncSafeEnvironment =>
    cases executed
    exact Monitors.Keeps.notifyFatalExceptionCaptured h isAsyncSafeEnvironment
  | restoreOriginalHandlers =>
    cases executed
    exact Monitors.Keeps.restoreOriginalHandlers h
  | onExceptionEvent =>
    rw [execute] at executed
    split at executed <;> cases executed <;> exact h
  | forward => exact absurd rfl continues
  | _ =>
    cases executed
    exact ⟨h.signal, h.nsException, h.cppException⟩

theorem Keeps.step {input : Input η} (h : Keeps s) (horderly : isOrderly s input = true)
    (hstep : s.step input = some s') : Keeps s' := by
  cases step_cases hstep with
  | app idle call => exact h.appCall horderly call
  | unreported source => exact h
  | enters henters => exact h.enters henters
  | statement running continues executed => exact h.statement continues executed
  | @forwards environment frame rest _ running forwarded =>
    have htail : Keeps { s with frames := rest } := h
    rcases forward_cases forwarded with rfl | rfl | ⟨function, rfl, -⟩ | henters
    · exact htail
    · exact htail
    · exact htail
    · exact htail.enters henters

theorem keeps_launched (chosen : Chosen η) : Keeps (launched chosen) where
  signal _ := rfl
  nsException := rfl
  cppException := rfl

/-- The handlers of the monitors that are off are those that the app has chosen. -/
structure Restored (s : Process η) : Prop where
  signal : s.monitors.signal.isEnabled = false →
    ∀ signal, s.monitors.signal.dispositions signal = .app (s.chosen.dispositions signal)
  nsException : s.monitors.nsException.isEnabled = false →
    s.monitors.nsException.uncaughtExceptionHandler = s.chosen.uncaughtExceptionHandler.map .app
  cppException : s.monitors.cppException.isEnabled = false →
    s.monitors.cppException.terminateHandler = s.chosen.terminateHandler.map .app

theorem Keeps.restored (h : Keeps s) : Restored s where
  signal hoff := by
    have hsignal := h.signal
    rw [SignalMonitor.Keeps, hoff] at hsignal
    exact hsignal
  nsException hoff := by
    have hnsException := h.nsException
    rw [NSExceptionMonitor.Keeps, hoff] at hnsException
    exact hnsException
  cppException hoff := by
    have hcppException := h.cppException
    rw [CPPExceptionMonitor.Keeps, hoff] at hcppException
    exact hcppException

end Process

/-- Whenever a monitor is off, also because a crash has turned it off, what it had replaced is back
as the app has chosen it last. -/
theorem handlers_restored (chosen : Chosen η) (inputs : List (Input η))
    (orderly : Allowed Process.step (fun s input => isOrderly s input = true)
      (Process.launched chosen) inputs) :
    Always Process.step Process.Restored (Process.launched chosen) inputs :=
  always_of_allowed (fun _ h => h.restored) (fun _ _ _ h hok hstep => h.step hok hstep)
    (Process.keeps_launched chosen) orderly

theorem handlers_restored_bothReport :
    Always Process.step Process.Restored (Process.launched handlingApp) bothReport :=
  handlers_restored handlingApp bothReport (by decide)

/-- A signal that a handler is done with is raised again for what the app has chosen, never for
the handler itself. -/
theorem raised_signal_reaches_the_app (chosen : Chosen η) (inputs : List (Input η))
    (orderly : Allowed Process.step (fun s input => isOrderly s input = true)
      (Process.launched chosen) inputs) :
    Always Process.step
      (fun s => ∀ frame ∈ s.frames, frame.todo = [.forward] →
        ∀ signal, frame.source = .signal signal →
          s.monitors.signal.dispositions signal = .app (s.chosen.dispositions signal))
      (Process.launched chosen) inputs := by
  have sound (s : Process η) (h : Process.Counted s ∧ Process.Sound s ∧ Process.Keeps s)
      (frame : Frame) (hframe : frame ∈ s.frames) (htodo : frame.todo = [.forward])
      (signal : Signal) (hsource : frame.source = .signal signal) :
      s.monitors.signal.dispositions signal = .app (s.chosen.dispositions signal) := by
    have hended : frame.isEnded = true := by simp [Frame.isEnded, htodo]
    have hoff : s.monitors.signal.isEnabled = false :=
      h.2.1.ended frame hframe hended .signal (congrArg Source.monitor hsource)
    exact h.2.2.restored.signal hoff signal
  refine always_of_allowed sound (fun s input s' h hok hstep => ?_) ?_ orderly
  · exact ⟨h.1.step hstep, h.2.1.step h.1 hstep, h.2.2.step hok hstep⟩
  · exact ⟨Process.counted_launched chosen, Process.sound_launched chosen,
      Process.keeps_launched chosen⟩

theorem raised_signal_reaches_the_app_bothReport :
    Always Process.step
      (fun s => ∀ frame ∈ s.frames, frame.todo = [.forward] →
        ∀ signal, frame.source = .signal signal →
          s.monitors.signal.dispositions signal = .app (s.chosen.dispositions signal))
      (Process.launched handlingApp) bothReport :=
  raised_signal_reaches_the_app handlingApp bothReport (by decide)

end SentryCocoa.CrashMonitors
