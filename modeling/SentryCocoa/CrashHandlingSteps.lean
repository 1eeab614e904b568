import SentryCocoa.CrashHandlers

/-! What a step of the process can do: the app is called while no handler runs, a handler is entered,
or the handler on top executes its next statement. -/
namespace SentryCocoa.CrashMonitors
open Library.Machine

variable {η : Type}

/-! The order of the statements of a handler. -/

def Statement.successors : Statement → List Statement
  | .notifyFatalExceptionCaptured _ => [.activateSecondaryThread, .fillContext]
  | .activateSecondaryThread => [.fillContext]
  | .fillContext => [.onExceptionEvent]
  | .onExceptionEvent => [.restoreOriginalHandlers]
  | .restoreOriginalHandlers => [.endHandling, .forward]
  | .endHandling => [.forward]
  | .forward => []

/-- A handler ends in its `forward`. -/
def Ordered : List Statement → Prop
  | [] => False
  | [statement] => statement = .forward
  | statement :: next :: rest => next ∈ statement.successors ∧ Ordered (next :: rest)

theorem Ordered.next {statement : Statement} {todo : List Statement}
    (h : Ordered (statement :: todo)) (hne : statement ≠ .forward) :
    Ordered todo ∧ ∃ next, todo.head? = some next ∧ next ∈ statement.successors := by
  cases todo with
  | nil => exact absurd h hne
  | cons next rest => exact ⟨h.2, next, rfl, h.1⟩

/-- The source whose monitor decides whether a crash is reported. -/
def Source.monitor : Source → Option Monitor
  | .machException => some .machException
  | .signal _ => some .signal
  | .nsException => some .nsException
  | .cppException false => some .cppException
  | .cppException true => none

namespace Process

variable {s s' : Process η}

/-- What the threads of the Mach monitor change. -/
def withMach (s : Process η) (mach : MachException) : Process η :=
  { s with monitors := { s.monitors with machException := mach } }

/-- The monitor of the source reports a crash now; the one of C++ does when it is called. -/
def Armed (s : Process η) (source : Source) : Prop :=
  (source = .cppException false ∧ (s.monitors.cppException.terminateHandler = some .monitor ∨
    s.monitors.cppException.originalTerminateHandler = some .monitor)) ∨
    ∃ monitor, source.monitor = some monitor ∧ s.monitors.isMonitorEnabled monitor = true

/-- The monitor of the source, where one decides, is off. -/
def Silent (s : Process η) (source : Source) : Prop :=
  ∀ monitor, source.monitor = some monitor → s.monitors.isMonitorEnabled monitor = false

/-- A handler is entered, to report the crash or only to forward it. -/
inductive Enters (s : Process η) : Process η → Prop where
  | silently (mach : MachException) (source : Source)
      (same : mach.isEnabled = s.monitors.machException.isEnabled) (silent : s.Silent source) :
      Enters s ((s.withMach mach).enter source [.forward])
  | reporting (mach : MachException) (source : Source) (todo : List Statement)
      (isAsyncSafeEnvironment : Bool)
      (same : mach.isEnabled = s.monitors.machException.isEnabled) (armed : s.Armed source)
      (first : todo.head? = some (.notifyFatalExceptionCaptured isAsyncSafeEnvironment))
      (ordered : Ordered todo) : Enters s ((s.withMach mach).enter source todo)

theorem ordered_handleException (isAsyncSafeEnvironment : Bool) {before after : List Statement}
    (hbefore : before ∈ [[], [Statement.activateSecondaryThread]])
    (hafter : after ∈ [[], [Statement.endHandling]]) :
    Ordered (handleException isAsyncSafeEnvironment before after) := by
  simp only [List.mem_cons, List.not_mem_nil, or_false] at hbefore hafter
  rcases hbefore with rfl | rfl <;> rcases hafter with rfl | rfl <;>
    simp [handleException, Ordered, Statement.successors]

/-- A handler that asks whether its monitor is enabled. -/
theorem enters_of_isEnabled {source : Source} {monitor : Monitor} (mach : MachException)
    (hsource : source.monitor = some monitor)
    (same : mach.isEnabled = s.monitors.machException.isEnabled)
    (isAsyncSafeEnvironment : Bool) {before after : List Statement}
    (hbefore : before ∈ [[], [Statement.activateSecondaryThread]])
    (hafter : after ∈ [[], [Statement.endHandling]]) :
    Enters s ((s.withMach mach).enter source
      (if s.monitors.isMonitorEnabled monitor then
        handleException isAsyncSafeEnvironment before after
      else [.forward])) := by
  split
  · rename_i hon
    exact .reporting mach source _ isAsyncSafeEnvironment same (.inr ⟨monitor, hsource, hon⟩) rfl
      (ordered_handleException isAsyncSafeEnvironment hbefore hafter)
  · rename_i hoff
    refine .silently mach source same fun other hother => ?_
    rw [hsource] at hother
    cases hother
    exact Bool.eq_false_iff.mpr hoff

theorem enters_trapMachException (h : s.trapMachException = some s') : Enters s s' := by
  have henters (mach : MachException)
      (same : mach.isEnabled = s.monitors.machException.isEnabled) (before : List Statement)
      (hbefore : before ∈ [[], [Statement.activateSecondaryThread]]) :=
    @enters_of_isEnabled η s .machException .machException mach rfl same true before
      [.endHandling] hbefore (by simp)
  rw [trapMachException] at h
  split at h
  · cases h
  · split at h
    · cases h
      refine henters _ ?_ [.activateSecondaryThread] (by simp)
      rfl
    · split at h
      · cases h
        refine henters _ ?_ [] (by simp)
        rfl
      · cases h

theorem enters_handleSignal (s : Process η) (signal : Signal) : Enters s (s.handleSignal signal) :=
  @enters_of_isEnabled η s (.signal signal) .signal s.monitors.machException rfl rfl false [] []
    (by simp) (by simp)

theorem enters_handleUncaughtException (s : Process η) :
    s.handleUncaughtException = s ∨ Enters s s.handleUncaughtException := by
  unfold handleUncaughtException
  split
  · rename_i hon
    right
    exact .reporting s.monitors.machException .nsException _ false rfl
      (.inr ⟨.nsException, rfl, hon⟩) rfl (ordered_handleException false (by simp) (by simp))
  · exact .inl rfl

theorem enters_terminate {isNSException : Bool}
    (harmed : s.monitors.cppException.terminateHandler = some .monitor ∨
      s.monitors.cppException.originalTerminateHandler = some .monitor) :
    Enters s (s.terminate isNSException) := by
  cases isNSException with
  | true =>
    exact .silently s.monitors.machException (.cppException true) rfl fun _ h => (nomatch h)
  | false =>
    exact .reporting s.monitors.machException (.cppException false) _ false rfl (.inl ⟨rfl, harmed⟩)
      rfl (ordered_handleException false (by simp) (by simp))

/-- A trapped crash enters its handler, unless that has nothing to do. -/
theorem trap_cases {source : Source} (h : s.trap source = some s') : s' = s ∨ Enters s s' := by
  cases source with
  | machException => exact .inr (enters_trapMachException h)
  | signal signal =>
    simp only [trap] at h
    split at h
    · cases h
      exact .inr (enters_handleSignal s signal)
    · cases h
  | nsException =>
    simp only [trap] at h
    split at h
    · cases h
      exact enters_handleUncaughtException s
    · split at h
      · cases h
        exact enters_handleUncaughtException s
      · cases h
  | cppException isNSException =>
    simp only [trap] at h
    split at h
    · rename_i harmed
      cases h
      exact .inr (enters_terminate (.inl harmed))
    · cases h

/-- Where a crash goes after its handler. -/
theorem forward_cases {source : Source} (h : s.forward source = some s') :
    s' = s ∨ s' = { s with isTerminated := true } ∨
      (∃ function, s' = { s with forwarded := s.forwarded ++ [⟨source, function⟩] } ∧
        ∀ isNSException, source = .cppException isNSException →
          s.monitors.cppException.originalTerminateHandler = some (.app function)) ∨
      Enters s s' := by
  cases source with
  | machException =>
    cases h
    exact .inl rfl
  | signal signal =>
    simp only [forward] at h
    split at h
    · cases h
      exact .inr (.inl rfl)
    · cases h
      exact .inl rfl
    · rename_i function _
      cases h
      exact .inr (.inr (.inl ⟨function, rfl, fun _ hsource => (nomatch hsource)⟩))
    · cases h
      exact .inr (.inr (.inr (enters_handleSignal s signal)))
    · cases h
  | nsException =>
    simp only [forward, Option.some.injEq] at h
    subst h
    cases s.monitors.nsException.previousUncaughtExceptionHandler with
    | none => exact .inl rfl
    | some hook =>
      cases hook with
      | app function =>
        exact .inr (.inr (.inl ⟨function, rfl, fun _ hsource => (nomatch hsource)⟩))
      | monitor =>
        rcases enters_handleUncaughtException s with hsame | henters
        · exact .inl hsame
        · exact .inr (.inr (.inr henters))
  | cppException isNSException =>
    simp only [forward, Option.some.injEq] at h
    subst h
    cases hhook : s.monitors.cppException.originalTerminateHandler with
    | none => exact .inl rfl
    | some hook =>
      cases hook with
      | app function => exact .inr (.inr (.inl ⟨function, rfl, fun _ _ => rfl⟩))
      | monitor => exact .inr (.inr (.inr (enters_terminate (.inr hhook))))

/-! The installation. -/

/-- What the crashes have left behind, which the installation never touches. -/
structure SameRecord (s s' : Process η) : Prop where
  frames : s'.frames = s.frames
  contexts : s'.contexts = s.contexts
  forwarded : s'.forwarded = s.forwarded
  calledNull : s'.calledNull = s.calledNull
  chosen : s'.chosen = s.chosen

theorem SameRecord.trans {s'' : Process η} (h : SameRecord s s') (h' : SameRecord s' s'') :
    SameRecord s s'' where
  frames := h'.frames.trans h.frames
  contexts := h'.contexts.trans h.contexts
  forwarded := h'.forwarded.trans h.forwarded
  calledNull := h'.calledNull.trans h.calledNull
  chosen := h'.chosen.trans h.chosen

theorem setMonitoring_record (environment : Environment) (s : Process η)
    (monitors : MonitorType) : SameRecord s (s.setMonitoring environment monitors) := by
  unfold setMonitoring
  split <;> exact ⟨rfl, rfl, rfl, rfl, rfl⟩

theorem restoreMonitoring_record (environment : Environment) (s : Process η) :
    SameRecord s (s.restoreMonitoring environment) := by
  unfold restoreMonitoring
  split
  · have h := setMonitoring_record environment s s.installation.monitoringWhenUninstalled
    exact ⟨h.frames, h.contexts, h.forwarded, h.calledNull, h.chosen⟩
  · exact ⟨rfl, rfl, rfl, rfl, rfl⟩

theorem sentrycrashInstall_record (environment : Environment) (s : Process η) :
    SameRecord s (s.sentrycrashInstall environment) := by
  unfold sentrycrashInstall
  split
  · exact ⟨rfl, rfl, rfl, rfl, rfl⟩
  · have h := setMonitoring_record environment { s with
      installation := { s.installation with isInstalled := true }
      hasEventCallback := true } s.installation.g_monitoring
    exact ⟨h.frames, h.contexts, h.forwarded, h.calledNull, h.chosen⟩

theorem install_record (environment : Environment) (s : Process η) :
    SameRecord s (s.install environment) :=
  (restoreMonitoring_record environment s).trans (sentrycrashInstall_record environment _)

theorem uninstall_record (environment : Environment) (s : Process η) :
    SameRecord s (s.uninstall environment) := by
  have h := setMonitoring_record environment s typeNone
  exact ⟨h.frames, h.contexts, h.forwarded, h.calledNull, h.chosen⟩

section Keep

variable {environment : Environment} {holds : Monitors η → Prop}

/-- What activating monitors keeps, the installation keeps. -/
theorem setMonitoring_keeps
    (keep : ∀ monitors types, holds monitors → holds (monitors.setActiveMonitors environment types))
    (h : holds s.monitors) (monitors : MonitorType) :
    holds (s.setMonitoring environment monitors).monitors := by
  unfold setMonitoring
  split
  · exact keep s.monitors monitors h
  · exact h

theorem restoreMonitoring_keeps
    (keep : ∀ monitors types, holds monitors → holds (monitors.setActiveMonitors environment types))
    (h : holds s.monitors) : holds (s.restoreMonitoring environment).monitors := by
  unfold restoreMonitoring
  split
  · exact setMonitoring_keeps keep h _
  · exact h

theorem install_keeps
    (keep : ∀ monitors types, holds monitors → holds (monitors.setActiveMonitors environment types))
    (h : holds s.monitors) : holds (s.install environment).monitors := by
  have hrestored := restoreMonitoring_keeps keep h
  unfold install sentrycrashInstall
  split
  · exact hrestored
  · exact @setMonitoring_keeps η { s.restoreMonitoring environment with
      installation := { (s.restoreMonitoring environment).installation with isInstalled := true }
      hasEventCallback := true } environment holds keep hrestored _

theorem uninstall_keeps
    (keep : ∀ monitors types, holds monitors → holds (monitors.setActiveMonitors environment types))
    (h : holds s.monitors) : holds (s.uninstall environment).monitors :=
  setMonitoring_keeps keep h typeNone

end Keep

/-- The flags that only crashes change. -/
structure SameFlags (monitors monitors' : Monitors η) : Prop where
  handling : monitors'.handlingFatalException = monitors.handlingFatalException
  crashed : monitors'.crashedDuringExceptionHandling = monitors.crashedDuringExceptionHandling
  requiresAsyncSafety : monitors'.requiresAsyncSafety = monitors.requiresAsyncSafety

theorem setActiveMonitors_flags (environment : Environment) (monitors : Monitors η)
    (monitorTypes : MonitorType) :
    SameFlags monitors (monitors.setActiveMonitors environment monitorTypes) := by
  rw [Monitors.setActiveMonitors_eq]
  exact ⟨rfl, rfl, rfl⟩

theorem appCall_flags {input : Input η} (h : s.appCall input = some s') :
    SameFlags s.monitors s'.monitors := by
  have keep (environment : Environment) (monitors : Monitors η) (types : MonitorType)
      (hsame : SameFlags s.monitors monitors) :
      SameFlags s.monitors (monitors.setActiveMonitors environment types) := by
    have hset := setActiveMonitors_flags environment monitors types
    exact ⟨hset.handling.trans hsame.handling, hset.crashed.trans hsame.crashed,
      hset.requiresAsyncSafety.trans hsame.requiresAsyncSafety⟩
  have hrefl : SameFlags s.monitors s.monitors := ⟨rfl, rfl, rfl⟩
  cases input with
  | install environment =>
    cases h
    exact install_keeps (keep environment) hrefl
  | uninstall environment =>
    cases h
    exact uninstall_keeps (keep environment) hrefl
  | setMonitoring monitors environment =>
    cases h
    exact setMonitoring_keeps (keep environment) hrefl monitors
  | trap source => cases h
  | proceed environment => cases h
  | _ =>
    cases h
    exact ⟨rfl, rfl, rfl⟩

theorem appCall_record {input : Input η} (h : s.appCall input = some s') :
    s'.frames = s.frames ∧ s'.contexts = s.contexts ∧ s'.forwarded = s.forwarded ∧
      s'.calledNull = s.calledNull := by
  have hrecord (t : Process η) (hsame : SameRecord s t) :
      t.frames = s.frames ∧ t.contexts = s.contexts ∧ t.forwarded = s.forwarded ∧
        t.calledNull = s.calledNull :=
    ⟨hsame.frames, hsame.contexts, hsame.forwarded, hsame.calledNull⟩
  cases input with
  | install environment =>
    cases h
    exact hrecord _ (install_record environment s)
  | uninstall environment =>
    cases h
    exact hrecord _ (uninstall_record environment s)
  | setMonitoring monitors environment =>
    cases h
    exact hrecord _ (setMonitoring_record environment s monitors)
  | trap source => cases h
  | proceed environment => cases h
  | _ =>
    cases h
    exact ⟨rfl, rfl, rfl, rfl⟩

/-! The steps. -/

/-- What a step can do. -/
inductive Step (s : Process η) : Input η → Process η → Prop where
  | app {input : Input η} {s' : Process η} (idle : s.frames = [])
      (call : s.appCall input = some s') : Step s input s'
  | unreported (source : Source) : Step s (.trap source) s
  | enters {source : Source} {s' : Process η} (enters : Enters s s') : Step s (.trap source) s'
  | statement {environment : Environment} {frame : Frame} {rest : List Frame}
      {statement : Statement} {s' : Process η}
      (running : s.frames = { frame with todo := statement :: frame.todo } :: rest)
      (continues : statement ≠ .forward)
      (executed : s.execute environment frame rest statement = some s') :
      Step s (.proceed environment) s'
  | forwards {environment : Environment} {frame : Frame} {rest : List Frame} {s' : Process η}
      (running : s.frames = { frame with todo := .forward :: frame.todo } :: rest)
      (forwarded : { s with frames := rest }.forward frame.source = some s') :
      Step s (.proceed environment) s'

theorem step_app {input : Input η}
    (h : (if s.isTerminated then none
      else if s.frames.isEmpty then s.appCall input else none) = some s') : Step s input s' := by
  split at h
  · cases h
  · split at h
    · rename_i hidle
      exact .app (List.isEmpty_iff.mp hidle) h
    · cases h

theorem step_proceed {environment : Environment} (h : s.proceed environment = some s') :
    Step s (.proceed environment) s' := by
  rw [proceed] at h
  split at h
  · cases h
  · rename_i frame rest hframes
    split at h
    · cases h
    · rename_i statement todo htodo
      have hrunning : s.frames =
          { { frame with todo := todo } with todo := statement :: todo } :: rest := by
        rw [hframes, ← htodo]
      by_cases hforward : statement = .forward
      · subst hforward
        exact .forwards hrunning h
      · exact .statement hrunning hforward h

theorem step_cases {input : Input η} (h : s.step input = some s') : Step s input s' := by
  cases input with
  | trap source =>
    simp only [step] at h
    split at h
    · cases h
    · rcases trap_cases h with rfl | henters
      · exact .unreported source
      · exact .enters henters
  | proceed environment =>
    simp only [step] at h
    split at h
    · cases h
    · exact step_proceed h
  | _ => exact step_app h

end Process

end SentryCocoa.CrashMonitors
