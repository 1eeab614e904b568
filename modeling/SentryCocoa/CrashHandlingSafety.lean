import SentryCocoa.CrashHandlingRuns

/-! What the handlers never do. A crash of a handler turns all monitors off, and so does the end of
a report; they stay off until the app is called again. -/
namespace SentryCocoa.CrashMonitors
open Library.Machine

variable {η : Type}

/-- The crash has been noticed, and the original handlers are not yet restored. -/
def Frame.isNoticed (frame : Frame) : Bool :=
  frame.todo.head?.any fun statement =>
    statement ∈ [.activateSecondaryThread, .fillContext, .onExceptionEvent,
      .restoreOriginalHandlers]

/-- All that is left is to forward the crash. -/
def Frame.isEnded (frame : Frame) : Bool :=
  frame.todo.head?.any fun statement => statement ∈ [.endHandling, .forward]

/-- A report is to come. -/
def Frame.isReporting (frame : Frame) : Bool :=
  frame.todo.head?.any fun statement =>
    match statement with
    | .restoreOriginalHandlers | .endHandling | .forward => false
    | _ => true

namespace Monitors

def Quiet (monitors : Monitors η) : Prop :=
  ∀ monitor, monitors.isMonitorEnabled monitor = false

/-- The monitors that need more than what is safe while the threads are suspended. -/
def UnsafeOff (monitors : Monitors η) : Prop :=
  monitors.nsException.isEnabled = false ∧ monitors.cppException.isEnabled = false ∧
    monitors.applicationState = false

/-- The terminate handler of the app is there or saved, and nowhere is it that of the monitor. -/
def Terminates (monitors : Monitors η) : Prop :=
  if monitors.cppException.isEnabled then
    monitors.cppException.originalTerminateHandler ≠ some .monitor
  else
    monitors.cppException.originalTerminateHandler = none ∧
      monitors.cppException.terminateHandler ≠ some .monitor

variable {monitors : Monitors η} (environment : Environment)

theorem Quiet.unsafeOff (h : monitors.Quiet) : monitors.UnsafeOff :=
  ⟨h .nsException, h .cppException, h .applicationState⟩

theorem quiet_typeNone : (monitors.setActiveMonitors environment typeNone).Quiet :=
  isMonitorEnabled_setActiveMonitors_typeNone environment monitors

theorem Terminates.setActiveMonitors (h : monitors.Terminates) (monitorTypes : MonitorType) :
    (monitors.setActiveMonitors environment monitorTypes).Terminates := by
  rw [setActiveMonitors_eq]
  unfold Terminates CPPExceptionMonitor.setEnabled at *
  cases hon : monitors.cppException.isEnabled <;>
    cases monitors.isRequested environment monitorTypes .cppException <;> simp_all

theorem Terminates.setTerminate (h : monitors.Terminates) (handler : Option η) :
    Terminates { monitors with
      cppException := { monitors.cppException with
        terminateHandler := handler.map .app } } := by
  have hhook : handler.map Hook.app ≠ some .monitor := by cases handler <;> simp
  by_cases hon : monitors.cppException.isEnabled = true
  · simp only [Terminates, hon, if_true] at h ⊢
    exact h
  · simp only [Terminates, hon] at h ⊢
    exact ⟨h.1, hhook⟩

theorem and_eq_zero_of_safe {monitorTypes unsafeType : MonitorType}
    (h : typeAsyncSafe &&& unsafeType = 0) :
    unsafeType &&& (monitorTypes &&& typeAsyncSafe) = 0 := by
  rw [BitVec.and_comm, BitVec.and_assoc, h]
  exact BitVec.and_zero

theorem and_eq_zero_of_not_unsafe {monitorTypes unsafeType : MonitorType}
    (h : typeAsyncUnsafe &&& unsafeType = unsafeType)
    (hnone : monitorTypes &&& typeAsyncUnsafe = 0) : unsafeType &&& monitorTypes = 0 := by
  rw [BitVec.and_comm, ← h, ← BitVec.and_assoc, hnone]
  exact BitVec.zero_and

/-- Where async safety is required an unsafe monitor is not asked for. -/
theorem isRequested_asyncUnsafe (hrequires : monitors.requiresAsyncSafety = true)
    (monitorTypes : MonitorType) {monitor : Monitor}
    (hasync : monitor ∈ [.nsException, .cppException, .applicationState]) :
    monitors.isRequested environment monitorTypes monitor = false := by
  have hsafe : typeAsyncSafe &&& monitor.monitorType = 0 := by
    simp only [List.mem_cons, List.not_mem_nil, or_false] at hasync
    rcases hasync with rfl | rfl | rfl <;> decide
  have hmask : typeAsyncUnsafe &&& monitor.monitorType = monitor.monitorType := by
    simp only [List.mem_cons, List.not_mem_nil, or_false] at hasync
    rcases hasync with rfl | rfl | rfl <;> decide
  have hzero : monitor.monitorType &&& monitors.maskedTypes environment monitorTypes = 0 := by
    simp only [maskedTypes, hrequires, true_and]
    generalize (if environment.isBeingTraced = true ∧ monitorTypes &&& typeDebuggerUnsafe ≠ 0 then
      monitorTypes &&& typeDebuggerSafe else monitorTypes) = traced
    split
    · exact and_eq_zero_of_safe hsafe
    · rename_i hnone
      exact and_eq_zero_of_not_unsafe hmask (by simpa using hnone)
  rw [isRequested, hzero]
  rfl

theorem unsafeOff_setActiveMonitors (hrequires : monitors.requiresAsyncSafety = true)
    (monitorTypes : MonitorType) :
    (monitors.setActiveMonitors environment monitorTypes).UnsafeOff := by
  have hoff {monitor : Monitor} :=
    @isRequested_asyncUnsafe η monitors environment hrequires monitorTypes monitor
  rw [setActiveMonitors_eq]
  refine ⟨?_, ?_, ?_⟩
  · exact (NSExceptionMonitor.isEnabled_setEnabled _ _).trans (hoff (by simp))
  · exact (CPPExceptionMonitor.isEnabled_setEnabled _ _).trans (hoff (by simp))
  · exact hoff (by simp)

/-- Handling a crash turns monitors off only. -/
theorem isMonitorEnabled_notify {monitor : Monitor} (isAsyncSafeEnvironment : Bool)
    (h : monitors.isMonitorEnabled monitor = false) :
    (monitors.notifyFatalExceptionCaptured environment
      isAsyncSafeEnvironment).isMonitorEnabled monitor = false := by
  rw [notifyFatalExceptionCaptured_eq]
  split
  · exact quiet_typeNone environment monitor
  · cases monitor <;> exact h

theorem isMonitorEnabled_restore {monitor : Monitor}
    (h : monitors.isMonitorEnabled monitor = false) :
    (monitors.restoreOriginalHandlers environment).isMonitorEnabled monitor = false := by
  unfold restoreOriginalHandlers
  split
  · exact quiet_typeNone environment monitor
  · exact h

theorem Terminates.notify (h : monitors.Terminates) (isAsyncSafeEnvironment : Bool) :
    (monitors.notifyFatalExceptionCaptured environment isAsyncSafeEnvironment).Terminates := by
  have hnoted : (monitors.noted isAsyncSafeEnvironment).Terminates := h
  rw [notifyFatalExceptionCaptured_eq]
  split
  · exact hnoted.setActiveMonitors environment typeNone
  · exact hnoted

theorem Terminates.restore (h : monitors.Terminates) :
    (monitors.restoreOriginalHandlers environment).Terminates := by
  unfold restoreOriginalHandlers
  split
  · exact h.setActiveMonitors environment typeNone
  · exact h

end Monitors

/-- The call can turn monitors on. -/
def Input.enables : Input η → Bool
  | .install _ => true
  | .setMonitoring _ _ => true
  | _ => false

namespace Process

variable {s s' : Process η}

/-- What holds between any two statements of a process. -/
structure Sound (s : Process η) : Prop where
  noticed : s.monitors.crashedDuringExceptionHandling = true →
    ∀ frame ∈ s.frames, frame.isNoticed = true → s.monitors.Quiet
  handling : ∀ frame ∈ s.frames, frame.isNoticed = true →
    s.monitors.handlingFatalException = true
  ended : ∀ frame ∈ s.frames, frame.isEnded = true → s.Silent frame.source
  reporting : ∀ frame ∈ s.frames, frame.isReporting = true → s.installation.isInstalled = true
  callback : s.installation.isInstalled = true → s.hasEventCallback = true
  uninstalled : s.installation.isInstalled = false → s.monitors.Quiet
  terminates : s.monitors.Terminates
  calledNull : s.calledNull = false
  forwarded : ∀ forwarded ∈ s.forwarded, forwarded.source ≠ .cppException false
  asyncSafety : s.monitors.requiresAsyncSafety = true →
    s.monitors.UnsafeOff ∨ ∃ frame ∈ s.frames, frame.isNoticed = true

theorem isMonitorEnabled_withMach {mach : MachException}
    (same : mach.isEnabled = s.monitors.machException.isEnabled) (monitor : Monitor) :
    (s.withMach mach).monitors.isMonitorEnabled monitor = s.monitors.isMonitorEnabled monitor := by
  cases monitor with
  | machException => exact same
  | _ => rfl

theorem Sound.withMach (h : Sound s) {mach : MachException}
    (same : mach.isEnabled = s.monitors.machException.isEnabled) : Sound (s.withMach mach) where
  noticed hcrashed frame hframe hnoticed monitor :=
    (isMonitorEnabled_withMach same monitor).trans (h.noticed hcrashed frame hframe hnoticed monitor)
  handling := h.handling
  ended frame hframe hended monitor hmonitor :=
    (isMonitorEnabled_withMach same monitor).trans (h.ended frame hframe hended monitor hmonitor)
  reporting := h.reporting
  callback := h.callback
  uninstalled hinstalled monitor :=
    (isMonitorEnabled_withMach same monitor).trans (h.uninstalled hinstalled monitor)
  terminates := h.terminates
  calledNull := h.calledNull
  forwarded := h.forwarded
  asyncSafety := h.asyncSafety

theorem Sound.not_armed (h : Sound s) (hquiet : s.monitors.Quiet) (source : Source) :
    ¬s.Armed source := by
  have hterminates := h.terminates
  rw [Monitors.Terminates, show s.monitors.cppException.isEnabled = false from
    hquiet .cppException] at hterminates
  rintro (⟨-, hhook | hhook⟩ | ⟨monitor, -, hon⟩)
  · exact hterminates.2 hhook
  · rw [hterminates.1] at hhook
    cases hhook
  · rw [hquiet monitor] at hon
    cases hon

/-- A monitor reports only while `SentryCrash` is installed. -/
theorem Sound.installed_of_armed (h : Sound s) {source : Source} (harmed : s.Armed source) :
    s.installation.isInstalled = true := by
  by_contra hinstalled
  exact h.not_armed (h.uninstalled (Bool.eq_false_iff.mpr hinstalled)) source harmed

theorem Sound.push (h : Sound s) {frame : Frame} (hnoticed : frame.isNoticed = false)
    (hended : frame.isEnded = true → s.Silent frame.source)
    (hreporting : frame.isReporting = true → s.installation.isInstalled = true) :
    Sound { s with frames := frame :: s.frames } where
  noticed hcrashed other hother hon := by
    cases List.mem_cons.mp hother with
    | inl heq => rw [heq, hnoticed] at hon; cases hon
    | inr hrest => exact h.noticed hcrashed other hrest hon
  handling other hother hon := by
    cases List.mem_cons.mp hother with
    | inl heq => rw [heq, hnoticed] at hon; cases hon
    | inr hrest => exact h.handling other hrest hon
  ended other hother hon := by
    cases List.mem_cons.mp hother with
    | inl heq => rw [heq] at hon ⊢; exact hended hon
    | inr hrest => exact h.ended other hrest hon
  reporting other hother hon := by
    cases List.mem_cons.mp hother with
    | inl heq => rw [heq] at hon; exact hreporting hon
    | inr hrest => exact h.reporting other hrest hon
  callback := h.callback
  uninstalled := h.uninstalled
  terminates := h.terminates
  calledNull := h.calledNull
  forwarded := h.forwarded
  asyncSafety hrequires := by
    rcases h.asyncSafety hrequires with hoff | ⟨other, hother, hon⟩
    · exact .inl hoff
    · exact .inr ⟨other, List.mem_cons_of_mem frame hother, hon⟩

theorem Sound.enters (h : Sound s) (henters : Enters s s') : Sound s' := by
  cases henters with
  | silently mach source same silent =>
    refine (h.withMach same).push rfl (fun _ monitor hmonitor => ?_) fun hon => (nomatch hon)
    exact (isMonitorEnabled_withMach same monitor).trans (silent monitor hmonitor)
  | reporting mach source todo isAsyncSafeEnvironment same armed first ordered =>
    refine (h.withMach same).push ?_ (fun hon => ?_) fun _ => h.installed_of_armed armed
    · simp [Frame.isNoticed, first]
    · simp [Frame.isEnded, first] at hon

/-- The handler below the one on top. -/
theorem Sound.tail (h : Sound s) {frame : Frame} {rest : List Frame}
    (running : s.frames = frame :: rest) (hnoticed : frame.isNoticed = false) :
    Sound { s with frames := rest } where
  noticed hcrashed other hother :=
    h.noticed hcrashed other (running ▸ List.mem_cons_of_mem frame hother)
  handling other hother := h.handling other (running ▸ List.mem_cons_of_mem frame hother)
  ended other hother := h.ended other (running ▸ List.mem_cons_of_mem frame hother)
  reporting other hother := h.reporting other (running ▸ List.mem_cons_of_mem frame hother)
  callback := h.callback
  uninstalled := h.uninstalled
  terminates := h.terminates
  calledNull := h.calledNull
  forwarded := h.forwarded
  asyncSafety hrequires := by
    rcases h.asyncSafety hrequires with hoff | ⟨other, hother, hon⟩
    · exact .inl hoff
    · rw [running] at hother
      cases List.mem_cons.mp hother with
      | inl heq => rw [heq, hnoticed] at hon; cases hon
      | inr hrest => exact .inr ⟨other, hrest, hon⟩

/-- A handler that goes on, where the monitors and the flags stay. -/
theorem Sound.advance (h : Sound s) {frame frame' : Frame} {rest : List Frame}
    (running : s.frames = frame :: rest) (hnoticed : frame'.isNoticed = frame.isNoticed)
    (hended : frame'.isEnded = true → frame.isEnded = true ∧ frame'.source = frame.source)
    (hreporting : frame'.isReporting = true → frame.isReporting = true) :
    Sound { s with frames := frame' :: rest } := by
  have hmem : frame ∈ s.frames := running ▸ List.mem_cons_self
  cases hon : frame.isNoticed with
  | false =>
    refine (h.tail running hon).push (hnoticed.trans hon) (fun hend => ?_) fun hreport =>
      h.reporting frame hmem (hreporting hreport)
    obtain ⟨hend, hsource⟩ := hended hend
    rw [hsource]
    exact h.ended frame hmem hend
  | true =>
    have hother (other : Frame) (hother : other ∈ rest) : other ∈ s.frames :=
      running ▸ List.mem_cons_of_mem frame hother
    exact {
      noticed := fun hcrashed _ _ _ => h.noticed hcrashed frame hmem hon
      handling := fun _ _ _ => h.handling frame hmem hon
      ended := fun other hin hend => by
        cases List.mem_cons.mp hin with
        | inl heq =>
          rw [heq] at hend ⊢
          rw [(hended hend).2]
          exact h.ended frame hmem (hended hend).1
        | inr hrest => exact h.ended other (hother other hrest) hend
      reporting := fun other hin hreport => by
        cases List.mem_cons.mp hin with
        | inl heq =>
          rw [heq] at hreport
          exact h.reporting frame hmem (hreporting hreport)
        | inr hrest => exact h.reporting other (hother other hrest) hreport
      callback := h.callback
      uninstalled := h.uninstalled
      terminates := h.terminates
      calledNull := h.calledNull
      forwarded := h.forwarded
      asyncSafety := fun _ => .inr ⟨frame', List.mem_cons_self, hnoticed.trans hon⟩ }

theorem Sound.notify {environment : Environment} {isAsyncSafeEnvironment : Bool} {frame : Frame}
    {rest : List Frame} (h : Sound s)
    (running : s.frames = { frame with
      todo := .notifyFatalExceptionCaptured isAsyncSafeEnvironment :: frame.todo } :: rest)
    {next : Statement} (hnext : frame.todo.head? = some next)
    (hsuccessor : next ∈ [Statement.activateSecondaryThread, .fillContext]) :
    Sound { s with
      monitors := s.monitors.notifyFatalExceptionCaptured environment isAsyncSafeEnvironment
      frames := frame :: rest } := by
  obtain ⟨hcrashed, hhandling⟩ := notify_flags environment s.monitors isAsyncSafeEnvironment
  have hnoticed : frame.isNoticed = true := by
    simp only [List.mem_cons, List.not_mem_nil, or_false] at hsuccessor
    rcases hsuccessor with rfl | rfl <;> simp [Frame.isNoticed, hnext]
  have hended : frame.isEnded = false := by
    simp only [List.mem_cons, List.not_mem_nil, or_false] at hsuccessor
    rcases hsuccessor with rfl | rfl <;> simp [Frame.isEnded, hnext]
  have hrest (other : Frame) (hother : other ∈ rest) : other ∈ s.frames :=
    running ▸ List.mem_cons_of_mem _ hother
  have hinstalled : s.installation.isInstalled = true :=
    h.reporting _ (running ▸ List.mem_cons_self) rfl
  exact {
    noticed := fun hnow _ _ _ => by
      rw [hcrashed] at hnow
      rw [Monitors.notifyFatalExceptionCaptured_eq, if_pos hnow]
      exact Monitors.quiet_typeNone environment
    handling := fun _ _ _ => hhandling
    ended := fun other hother hend monitor hmonitor => by
      cases List.mem_cons.mp hother with
      | inl heq => rw [heq, hended] at hend; cases hend
      | inr hmem =>
        exact Monitors.isMonitorEnabled_notify environment isAsyncSafeEnvironment
          (h.ended other (hrest other hmem) hend monitor hmonitor)
    reporting := fun _ _ _ => hinstalled
    callback := h.callback
    uninstalled := fun hoff => by rw [hinstalled] at hoff; cases hoff
    terminates := h.terminates.notify environment isAsyncSafeEnvironment
    calledNull := h.calledNull
    forwarded := h.forwarded
    asyncSafety := fun _ => .inr ⟨frame, List.mem_cons_self, hnoticed⟩ }

/-- At the end of a report all monitors are off. -/
theorem Sound.quiet_restore (h : Sound s) (environment : Environment) {frame : Frame}
    (hframe : frame ∈ s.frames) (hnoticed : frame.isNoticed = true) :
    (s.monitors.restoreOriginalHandlers environment).Quiet := by
  unfold Monitors.restoreOriginalHandlers
  split
  · exact Monitors.quiet_typeNone environment
  · rename_i hfirst
    refine h.noticed ?_ frame hframe hnoticed
    simpa [h.handling frame hframe hnoticed] using hfirst

theorem Sound.restore {environment : Environment} {frame : Frame} {rest : List Frame}
    (h : Sound s)
    (running : s.frames = { frame with todo := .restoreOriginalHandlers :: frame.todo } :: rest)
    {next : Statement} (hnext : frame.todo.head? = some next)
    (hsuccessor : next ∈ [Statement.endHandling, .forward]) :
    Sound { s with
      monitors := s.monitors.restoreOriginalHandlers environment
      frames := frame :: rest } := by
  have hquiet := h.quiet_restore environment (running ▸ List.mem_cons_self) rfl
  have hflags := restore_flags environment s.monitors
  have hrest (other : Frame) (hother : other ∈ rest) : other ∈ s.frames :=
    running ▸ List.mem_cons_of_mem _ hother
  have hhandling : s.monitors.handlingFatalException = true :=
    h.handling _ (running ▸ List.mem_cons_self) rfl
  have hreporting : frame.isReporting = false := by
    simp only [List.mem_cons, List.not_mem_nil, or_false] at hsuccessor
    rcases hsuccessor with rfl | rfl <;> simp [Frame.isReporting, hnext]
  exact {
    noticed := fun _ _ _ _ => hquiet
    handling := fun _ _ _ => hflags.handling.trans hhandling
    ended := fun _ _ _ monitor _ => hquiet monitor
    reporting := fun other hother hreport => by
      cases List.mem_cons.mp hother with
      | inl heq => rw [heq, hreporting] at hreport; cases hreport
      | inr hmem => exact h.reporting other (hrest other hmem) hreport
    callback := h.callback
    uninstalled := fun _ => hquiet
    terminates := h.terminates.restore environment
    calledNull := h.calledNull
    forwarded := h.forwarded
    asyncSafety := fun _ => .inl hquiet.unsafeOff }

theorem isEnabled_activateSecondaryThread (mach : MachException) :
    (activateSecondaryThread mach).isEnabled = mach.isEnabled := by
  unfold activateSecondaryThread MachException.restoreExceptionPorts
  cases mach.previousExceptionPorts <;> rfl

theorem Sound.statement {environment : Environment} {frame : Frame} {rest : List Frame}
    {statement : Statement} (h : Sound s)
    (running : s.frames = { frame with todo := statement :: frame.todo } :: rest)
    (ordered : Ordered (statement :: frame.todo)) (continues : statement ≠ .forward)
    (executed : s.execute environment frame rest statement = some s') : Sound s' := by
  obtain ⟨-, next, hnext, hsuccessor⟩ := ordered.next continues
  cases statement with
  | notifyFatalExceptionCaptured isAsyncSafeEnvironment =>
    cases executed
    exact h.notify running hnext hsuccessor
  | activateSecondaryThread =>
    cases executed
    cases List.mem_singleton.mp hsuccessor
    have hmach : Sound (s.withMach (activateSecondaryThread s.monitors.machException)) :=
      h.withMach (isEnabled_activateSecondaryThread s.monitors.machException)
    refine hmach.advance running ?_ ?_ ?_
    · simp [Frame.isNoticed, hnext]
    · simp [Frame.isEnded, hnext]
    · simp [Frame.isReporting, hnext]
  | fillContext =>
    cases executed
    cases List.mem_singleton.mp hsuccessor
    refine h.advance running ?_ ?_ ?_
    · simp [Frame.isNoticed, hnext]
    · simp [Frame.isEnded, hnext]
    · simp [Frame.isReporting, hnext]
  | onExceptionEvent =>
    cases List.mem_singleton.mp hsuccessor
    have hcallback : s.hasEventCallback = true :=
      h.callback (h.reporting _ (running ▸ List.mem_cons_self) rfl)
    rw [execute, if_pos hcallback] at executed
    cases executed
    have hadvanced : Sound { s with frames := frame :: rest } := by
      refine h.advance running ?_ ?_ ?_
      · simp [Frame.isNoticed, hnext]
      · simp [Frame.isEnded, hnext]
      · simp [Frame.isReporting, hnext]
    exact ⟨hadvanced.noticed, hadvanced.handling, hadvanced.ended, hadvanced.reporting,
      hadvanced.callback, hadvanced.uninstalled, hadvanced.terminates, hadvanced.calledNull,
      hadvanced.forwarded, hadvanced.asyncSafety⟩
  | restoreOriginalHandlers =>
    cases executed
    exact h.restore running hnext hsuccessor
  | endHandling =>
    cases executed
    cases List.mem_singleton.mp hsuccessor
    have hmach : Sound (s.withMach { s.monitors.machException with isHandlingCrash := false }) :=
      h.withMach rfl
    refine hmach.advance running ?_ ?_ ?_
    · simp [Frame.isNoticed, hnext]
    · simp [Frame.isEnded]
    · simp [Frame.isReporting, hnext]
  | forward => exact absurd rfl continues

/-- What the app may rely on, and what the installation relies on. -/
structure Installed (s : Process η) : Prop where
  callback : s.installation.isInstalled = true → s.hasEventCallback = true
  uninstalled : s.installation.isInstalled = false → s.monitors.Quiet

theorem Installed.setMonitoring (h : Installed s) (environment : Environment)
    (monitors : MonitorType) : Installed (s.setMonitoring environment monitors) := by
  unfold Process.setMonitoring
  split
  · rename_i hinstalled
    exact ⟨h.callback, fun hoff => by
      change s.installation.isInstalled = false at hoff
      rw [hinstalled] at hoff
      cases hoff⟩
  · exact ⟨h.callback, h.uninstalled⟩

theorem Installed.restoreMonitoring (h : Installed s) (environment : Environment) :
    Installed (s.restoreMonitoring environment) := by
  unfold Process.restoreMonitoring
  split
  · have hset := h.setMonitoring environment s.installation.monitoringWhenUninstalled
    exact ⟨hset.callback, hset.uninstalled⟩
  · exact h

theorem Installed.sentrycrashInstall (h : Installed s) (environment : Environment) :
    Installed (s.sentrycrashInstall environment) := by
  unfold Process.sentrycrashInstall
  split
  · exact ⟨h.callback, h.uninstalled⟩
  · refine Installed.setMonitoring ⟨fun _ => rfl, fun hoff => ?_⟩ environment _
    cases hoff

theorem Installed.uninstall (h : Installed s) (environment : Environment) :
    Installed (s.uninstall environment) := by
  refine ⟨fun hon => (nomatch hon), fun _ => ?_⟩
  change (s.setMonitoring environment typeNone).monitors.Quiet
  unfold Process.setMonitoring
  split
  · exact Monitors.quiet_typeNone environment
  · rename_i hoff
    exact h.uninstalled (Bool.eq_false_iff.mpr hoff)

theorem Installed.appCall {input : Input η} (h : Installed s) (call : s.appCall input = some s') :
    Installed s' := by
  cases input with
  | install environment =>
    cases call
    exact (h.restoreMonitoring environment).sentrycrashInstall environment
  | uninstall environment =>
    cases call
    exact h.uninstall environment
  | setMonitoring monitors environment =>
    cases call
    exact h.setMonitoring environment monitors
  | trap source => cases call
  | proceed environment => cases call
  | _ =>
    cases call
    exact ⟨h.callback, fun hoff monitor => by
      have hquiet := h.uninstalled hoff monitor
      cases monitor <;> exact hquiet⟩

theorem terminates_appCall {input : Input η} (h : s.monitors.Terminates)
    (call : s.appCall input = some s') : s'.monitors.Terminates := by
  have keep (environment : Environment) (monitors : Monitors η) (types : MonitorType)
      (hkept : monitors.Terminates) :
      (monitors.setActiveMonitors environment types).Terminates :=
    hkept.setActiveMonitors environment types
  cases input with
  | install environment =>
    cases call
    exact install_keeps (keep environment) h
  | uninstall environment =>
    cases call
    exact uninstall_keeps (keep environment) h
  | setMonitoring monitors environment =>
    cases call
    exact setMonitoring_keeps (keep environment) h monitors
  | setTerminate handler =>
    cases call
    exact h.setTerminate handler
  | trap source => cases call
  | proceed environment => cases call
  | _ =>
    cases call
    exact h

/-- What a call of the app leaves off when async safety is required. -/
theorem unsafeOff_appCall {input : Input η} (hrequires : s.monitors.requiresAsyncSafety = true)
    (h : s.monitors.UnsafeOff) (call : s.appCall input = some s') : s'.monitors.UnsafeOff := by
  have keep (environment : Environment) (monitors : Monitors η) (types : MonitorType)
      (hkept : monitors.requiresAsyncSafety = true ∧ monitors.UnsafeOff) :
      (monitors.setActiveMonitors environment types).requiresAsyncSafety = true ∧
        (monitors.setActiveMonitors environment types).UnsafeOff :=
    ⟨(setActiveMonitors_flags environment monitors types).requiresAsyncSafety.trans hkept.1,
      Monitors.unsafeOff_setActiveMonitors environment hkept.1 types⟩
  cases input with
  | install environment =>
    cases call
    exact (install_keeps (keep environment) ⟨hrequires, h⟩).2
  | uninstall environment =>
    cases call
    exact (uninstall_keeps (keep environment) ⟨hrequires, h⟩).2
  | setMonitoring monitors environment =>
    cases call
    exact (setMonitoring_keeps (keep environment) ⟨hrequires, h⟩ monitors).2
  | trap source => cases call
  | proceed environment => cases call
  | _ =>
    cases call
    exact h

theorem Sound.appCall {input : Input η} (h : Sound s) (idle : s.frames = [])
    (call : s.appCall input = some s') : Sound s' := by
  obtain ⟨hframes, -, hforwarded, hcalledNull⟩ := appCall_record call
  have hflags := appCall_flags call
  have hinstalled : Installed s' := Installed.appCall ⟨h.callback, h.uninstalled⟩ call
  have hidle (frame : Frame) : frame ∉ s'.frames := by
    rw [hframes, idle]
    exact List.not_mem_nil
  exact {
    noticed := fun _ frame hframe => absurd hframe (hidle frame)
    handling := fun frame hframe => absurd hframe (hidle frame)
    ended := fun frame hframe => absurd hframe (hidle frame)
    reporting := fun frame hframe => absurd hframe (hidle frame)
    callback := hinstalled.callback
    uninstalled := hinstalled.uninstalled
    terminates := terminates_appCall h.terminates call
    calledNull := hcalledNull.trans h.calledNull
    forwarded := hforwarded ▸ h.forwarded
    asyncSafety := fun hrequires => by
      have hbefore : s.monitors.requiresAsyncSafety = true :=
        hflags.requiresAsyncSafety.symm.trans hrequires
      rcases h.asyncSafety hbefore with hoff | ⟨frame, hframe, -⟩
      · exact .inl (unsafeOff_appCall hbefore hoff call)
      · rw [idle] at hframe
        cases hframe }

theorem Sound.step {input : Input η} (h : Sound s) (hcounted : Counted s)
    (hstep : s.step input = some s') : Sound s' := by
  cases step_cases hstep with
  | app idle call => exact h.appCall idle call
  | unreported source => exact h
  | enters henters => exact h.enters henters
  | statement running continues executed =>
    exact h.statement running (hcounted.ordered _ (running ▸ List.mem_cons_self)) continues executed
  | @forwards environment frame rest _ running forwarded =>
    have htail := h.tail running rfl
    have hsilent : s.Silent frame.source :=
      h.ended { frame with todo := .forward :: frame.todo } (running ▸ List.mem_cons_self) rfl
    rcases forward_cases forwarded with rfl | rfl | ⟨function, rfl, hhook⟩ | henters
    · exact htail
    · exact ⟨htail.noticed, htail.handling, htail.ended, htail.reporting, htail.callback,
        htail.uninstalled, htail.terminates, htail.calledNull, htail.forwarded, htail.asyncSafety⟩
    · refine ⟨htail.noticed, htail.handling, htail.ended, htail.reporting, htail.callback,
        htail.uninstalled, htail.terminates, htail.calledNull, ?_, htail.asyncSafety⟩
      intro other hother hsource
      cases List.mem_append.mp hother with
      | inl hmem => exact h.forwarded other hmem hsource
      | inr hnew =>
        cases List.mem_singleton.mp hnew
        have hoff : s.monitors.cppException.isEnabled = false :=
          hsilent .cppException (congrArg Source.monitor hsource)
        have hterminates := h.terminates
        rw [Monitors.Terminates, hoff] at hterminates
        have hfunction := hhook false hsource
        rw [hterminates.1] at hfunction
        cases hfunction
    · exact htail.enters henters

theorem sound_launched (chosen : Chosen η) : Sound (launched chosen) where
  noticed hcrashed := nomatch hcrashed
  handling _ hframe := absurd hframe List.not_mem_nil
  ended _ hframe := absurd hframe List.not_mem_nil
  reporting _ hframe := absurd hframe List.not_mem_nil
  callback hinstalled := nomatch hinstalled
  uninstalled _ monitor := by cases monitor <;> rfl
  terminates := by
    refine ⟨rfl, ?_⟩
    cases h : chosen.terminateHandler <;> simp [launched, h]
  calledNull := rfl
  forwarded _ hforwarded := absurd hforwarded List.not_mem_nil
  asyncSafety hrequires := nomatch hrequires

/-- What follows from the invariants holds in every process. -/
theorem always_of_sound {holds : Process η → Prop} (sound : ∀ s, Counted s → Sound s → holds s)
    (chosen : Chosen η) (inputs : List (Input η)) :
    Always step holds (launched chosen) inputs := by
  have hlaunched : Counted (launched chosen) ∧ Sound (launched chosen) :=
    ⟨counted_launched chosen, sound_launched chosen⟩
  have keep (s : Process η) (input : Input η) (s' : Process η) (h : Counted s ∧ Sound s)
      (hstep : s.step input = some s') : Counted s' ∧ Sound s' :=
    ⟨h.1.step hstep, h.2.step h.1 hstep⟩
  exact always_of_invariant (fun s h => sound s h.1 h.2) keep hlaunched inputs

/-! Once all monitors are off. -/

/-- The reports that there are and those that can still come. -/
def reports (s : Process η) : Nat := s.contexts.length + s.frames.countP Frame.isReporting

/-- Nothing that is entered reports. -/
theorem Sound.quiet_enters (h : Sound s) (hquiet : s.monitors.Quiet) (henters : Enters s s') :
    s'.monitors.Quiet ∧ s'.reports = s.reports := by
  cases henters with
  | silently mach source same silent =>
    refine ⟨fun monitor => (isMonitorEnabled_withMach same monitor).trans (hquiet monitor), ?_⟩
    have hframe : (⟨source, ⟨false, false⟩, [.forward]⟩ : Frame).isReporting = false := rfl
    change s.contexts.length + (_ :: s.frames).countP Frame.isReporting = _
    rw [List.countP_cons, hframe]
    rfl
  | reporting mach source todo isAsyncSafeEnvironment same armed first ordered =>
    exact absurd armed (h.not_armed hquiet source)

theorem reports_le {frame frame' : Frame} {rest : List Frame} (running : s.frames = frame :: rest)
    (frames : s'.frames = frame' :: rest) (contexts : s'.contexts = s.contexts)
    (hreporting : frame'.isReporting = true → frame.isReporting = true) :
    s'.reports ≤ s.reports := by
  simp only [reports, running, frames, contexts, List.countP_cons]
  split
  · rename_i hreport
    simp only [hreporting hreport, if_true, Nat.le_refl]
  · omega

/-- A statement turns no monitor on, and a report that it makes is one of those to come. -/
theorem Sound.quiet_statement {environment : Environment} {frame : Frame} {rest : List Frame}
    {statement : Statement} (h : Sound s) (hquiet : s.monitors.Quiet)
    (running : s.frames = { frame with todo := statement :: frame.todo } :: rest)
    (ordered : Ordered (statement :: frame.todo)) (continues : statement ≠ .forward)
    (executed : s.execute environment frame rest statement = some s') :
    s'.monitors.Quiet ∧ s'.reports ≤ s.reports := by
  obtain ⟨-, next, hnext, hsuccessor⟩ := ordered.next continues
  cases statement with
  | notifyFatalExceptionCaptured isAsyncSafeEnvironment =>
    cases executed
    refine ⟨fun monitor => Monitors.isMonitorEnabled_notify environment _ (hquiet monitor), ?_⟩
    exact reports_le running rfl rfl fun _ => rfl
  | activateSecondaryThread =>
    cases executed
    have hmach := isEnabled_activateSecondaryThread s.monitors.machException
    refine ⟨fun monitor => (isMonitorEnabled_withMach hmach monitor).trans (hquiet monitor), ?_⟩
    exact reports_le running rfl rfl fun _ => rfl
  | fillContext =>
    cases executed
    exact ⟨hquiet, reports_le running rfl rfl fun _ => rfl⟩
  | onExceptionEvent =>
    cases List.mem_singleton.mp hsuccessor
    have hcallback : s.hasEventCallback = true :=
      h.callback (h.reporting _ (running ▸ List.mem_cons_self) rfl)
    rw [execute, if_pos hcallback] at executed
    cases executed
    refine ⟨hquiet, ?_⟩
    have hbefore : ({ frame with todo := .onExceptionEvent :: frame.todo } : Frame).isReporting =
        true := rfl
    have hafter : frame.isReporting = false := by simp [Frame.isReporting, hnext]
    simp only [reports, running, List.countP_cons, hbefore, hafter, List.length_append,
      List.length_singleton, if_true, Bool.false_eq_true, if_false]
    omega
  | restoreOriginalHandlers =>
    cases executed
    refine ⟨fun monitor => Monitors.isMonitorEnabled_restore environment (hquiet monitor), ?_⟩
    refine reports_le running rfl rfl fun hreport => ?_
    simp only [Statement.successors, List.mem_cons, List.not_mem_nil, or_false] at hsuccessor
    rcases hsuccessor with rfl | rfl <;> simp [Frame.isReporting, hnext] at hreport
  | endHandling =>
    cases executed
    cases List.mem_singleton.mp hsuccessor
    refine ⟨fun monitor => ?_, reports_le running rfl rfl fun hreport => ?_⟩
    · have hoff := hquiet monitor
      cases monitor <;> exact hoff
    · simp [Frame.isReporting, hnext] at hreport
  | forward => exact absurd rfl continues

theorem Sound.quiet_appCall {input : Input η} (h : Sound s) (hquiet : s.monitors.Quiet)
    (hinput : input.enables = false) (call : s.appCall input = some s') : s'.monitors.Quiet := by
  cases input with
  | install environment => cases hinput
  | setMonitoring monitors environment => cases hinput
  | uninstall environment =>
    cases call
    exact (Installed.uninstall ⟨h.callback, h.uninstalled⟩ environment).uninstalled rfl
  | trap source => cases call
  | proceed environment => cases call
  | _ =>
    cases call
    intro monitor
    have hoff := hquiet monitor
    cases monitor <;> exact hoff

/-- While all monitors are off no report is added to those to come. -/
theorem Sound.quiet_step {input : Input η} (h : Sound s) (hcounted : Counted s)
    (hquiet : s.monitors.Quiet) (hinput : input.enables = false)
    (hstep : s.step input = some s') : s'.monitors.Quiet ∧ s'.reports ≤ s.reports := by
  cases step_cases hstep with
  | app idle call =>
    obtain ⟨hframes, hcontexts, -, -⟩ := appCall_record call
    have hsame : s'.reports = s.reports := by rw [reports, reports, hframes, hcontexts]
    exact ⟨h.quiet_appCall hquiet hinput call, Nat.le_of_eq hsame⟩
  | unreported source => exact ⟨hquiet, Nat.le_refl _⟩
  | enters henters =>
    obtain ⟨hquiet', hreports⟩ := h.quiet_enters hquiet henters
    exact ⟨hquiet', Nat.le_of_eq hreports⟩
  | statement running continues executed =>
    exact h.quiet_statement hquiet running
      (hcounted.ordered _ (running ▸ List.mem_cons_self)) continues executed
  | @forwards environment frame rest _ running forwarded =>
    have htail : Sound { s with frames := rest } := h.tail running rfl
    have hle : ({ s with frames := rest } : Process η).reports ≤ s.reports := by
      simp only [reports, running, List.countP_cons]
      omega
    rcases forward_cases forwarded with rfl | rfl | ⟨function, rfl, -⟩ | henters
    · exact ⟨hquiet, hle⟩
    · exact ⟨hquiet, hle⟩
    · exact ⟨hquiet, hle⟩
    · obtain ⟨hquiet', hreports⟩ := htail.quiet_enters hquiet henters
      exact ⟨hquiet', hreports ▸ hle⟩

theorem quiet_run {inputs : List (Input η)} (hcounted : Counted s) (h : Sound s)
    (hquiet : s.monitors.Quiet) (hinputs : ∀ input ∈ inputs, input.enables = false)
    {t : Process η} (run : exec step s inputs = some t) : t.reports ≤ s.reports := by
  induction inputs generalizing s with
  | nil =>
    cases run
    exact Nat.le_refl _
  | cons input rest ih =>
    obtain ⟨s', hstep, hrest⟩ := exec_cons_eq_some.mp run
    obtain ⟨hquiet', hle⟩ :=
      h.quiet_step hcounted hquiet (hinputs input List.mem_cons_self) hstep
    refine Nat.le_trans (ih (hcounted.step hstep) (h.step hcounted hstep) hquiet' ?_ hrest) hle
    exact fun other hother => hinputs other (List.mem_cons_of_mem input hother)

end Process

/-- A crash that is noticed while another one is handled is the last one that is reported: of the
handlers that run then each may still report, and whatever crashes after that is not reported
unless the app installs or sets what is monitored. -/
theorem no_report_after_crash_in_handler (chosen : Chosen η) (before after : List (Input η))
    (s t : Process η) (reached : exec Process.step (Process.launched chosen) before = some s)
    (crashed : s.monitors.crashedDuringExceptionHandling = true)
    (noticed : ∃ frame ∈ s.frames, frame.isNoticed = true)
    (run : exec Process.step s after = some t)
    (kept : ∀ input ∈ after, input.enables = false) :
    t.contexts.length ≤ s.contexts.length + s.frames.countP Frame.isReporting := by
  have halways : Always Process.step (fun s => Process.Counted s ∧ Process.Sound s)
      (Process.launched chosen) before :=
    Process.always_of_sound (fun _ hcounted hsound => ⟨hcounted, hsound⟩) chosen before
  obtain ⟨hcounted, hsound⟩ := halways.exec reached
  obtain ⟨frame, hframe, hnoticed⟩ := noticed
  have hquiet := hsound.noticed crashed frame hframe hnoticed
  have hle := Process.quiet_run hcounted hsound hquiet kept run
  unfold Process.reports at hle
  omega

theorem no_report_after_crash_in_handler_bothReport :
    ∃ s t, exec Process.step (Process.launched handlingApp) crashInHandler = some s ∧
      exec Process.step s (List.replicate 5 (.proceed working)) = some t ∧
      t.contexts.length ≤ s.contexts.length + s.frames.countP Frame.isReporting :=
  ⟨_, _, rfl, rfl, no_report_after_crash_in_handler handlingApp crashInHandler
    (List.replicate 5 (.proceed working)) _ _ rfl rfl ⟨_, List.mem_cons_self, rfl⟩ rfl
    (fun _ hinput => List.eq_of_mem_replicate hinput ▸ rfl)⟩

/-- Whatever crashes, and however the app installs and uninstalls, no event callback is called that
has been taken away. -/
theorem null_callback_never_called (chosen : Chosen η) (inputs : List (Input η)) :
    Always Process.step (fun s => s.calledNull = false) (Process.launched chosen) inputs :=
  Process.always_of_sound (fun _ _ h => h.calledNull) chosen inputs

/-- The terminate handler of the app is never called for a C++ exception that has been reported:
the report has it forgotten. -/
theorem reported_cppException_never_forwarded (chosen : Chosen η) (inputs : List (Input η)) :
    Always Process.step
      (fun s => ∀ forwarded ∈ s.forwarded, forwarded.source ≠ .cppException false)
      (Process.launched chosen) inputs :=
  Process.always_of_sound (fun _ _ h => h.forwarded) chosen inputs

end SentryCocoa.CrashMonitors
