import SentryCocoa.CrashHandlingSteps

/-! The reports of a run. The handlers can crash, so that a crash is noticed while another one is
handled; only the first crash is reported as one. -/
namespace SentryCocoa.CrashMonitors
open Library.Machine

variable {η : Type}

/-- A report is to come that is not of a handler, when the statement is the next one. -/
def Statement.isPending (crashed : Bool) (context : Context) : Statement → Bool
  | .activateSecondaryThread => !crashed
  | .fillContext => !crashed
  | .onExceptionEvent => !context.crashedDuringCrashHandling
  | _ => false

def Frame.isPending (crashed : Bool) (frame : Frame) : Bool :=
  frame.todo.head?.any (Statement.isPending crashed frame.context)

theorem isPending_eq {frame : Frame} {statement : Statement} (crashed : Bool)
    (h : frame.todo.head? = some statement) :
    frame.isPending crashed = statement.isPending crashed frame.context := by
  rw [Frame.isPending, h]
  rfl

theorem Statement.isPending_of_or {crashed crashed' : Bool} {context : Context}
    {statement : Statement} (h : statement.isPending (crashed || crashed') context = true) :
    statement.isPending crashed context = true := by
  cases statement <;> cases crashed <;> cases crashed' <;> simp_all [Statement.isPending]

theorem isPending_of_or {crashed crashed' : Bool} {frame : Frame}
    (h : frame.isPending (crashed || crashed') = true) : frame.isPending crashed = true := by
  unfold Frame.isPending at *
  cases hhead : frame.todo.head? with
  | none => rw [hhead] at h; cases h
  | some statement =>
    rw [hhead] at h
    exact Statement.isPending_of_or h

namespace Process

variable {s s' : Process η}

/-- The reports of crashes that are not of handlers. -/
def standardReports (s : Process η) : Nat :=
  s.contexts.countP fun context => !context.crashedDuringCrashHandling

def pendingReports (s : Process η) : Nat :=
  s.frames.countP (Frame.isPending s.monitors.crashedDuringExceptionHandling)

structure Counted (s : Process η) : Prop where
  ordered : ∀ frame ∈ s.frames, Ordered frame.todo
  count : s.standardReports + s.pendingReports ≤ s.monitors.handlingFatalException.toNat

theorem notify_flags (environment : Environment) (monitors : Monitors η)
    (isAsyncSafeEnvironment : Bool) :
    (monitors.notifyFatalExceptionCaptured environment
        isAsyncSafeEnvironment).crashedDuringExceptionHandling =
        (monitors.crashedDuringExceptionHandling || monitors.handlingFatalException) ∧
      (monitors.notifyFatalExceptionCaptured environment
        isAsyncSafeEnvironment).handlingFatalException = true := by
  rw [Monitors.notifyFatalExceptionCaptured_eq]
  split
  · have hset := setActiveMonitors_flags environment (monitors.noted isAsyncSafeEnvironment)
      typeNone
    exact ⟨hset.crashed, hset.handling⟩
  · exact ⟨rfl, rfl⟩

theorem restore_flags (environment : Environment) (monitors : Monitors η) :
    SameFlags monitors (monitors.restoreOriginalHandlers environment) := by
  unfold Monitors.restoreOriginalHandlers
  split
  · exact setActiveMonitors_flags environment monitors typeNone
  · exact ⟨rfl, rfl, rfl⟩

theorem Enters.frame (h : Enters s s') : ∃ frame mach,
    s' = { s.withMach mach with frames := frame :: s.frames } ∧ Ordered frame.todo ∧
      ∀ crashed, frame.isPending crashed = false := by
  cases h with
  | silently mach source same silent =>
    exact ⟨_, mach, rfl, rfl, fun crashed => rfl⟩
  | reporting mach source todo isAsyncSafeEnvironment same armed first ordered =>
    refine ⟨_, mach, rfl, ordered, fun crashed => ?_⟩
    rw [isPending_eq crashed first]
    rfl

theorem Counted.enters (h : Counted s) (henters : Enters s s') : Counted s' := by
  obtain ⟨frame, mach, rfl, hordered, hpending⟩ := henters.frame
  refine ⟨?_, ?_⟩
  · intro other hother
    cases List.mem_cons.mp hother with
    | inl heq => exact heq ▸ hordered
    | inr hrest => exact h.ordered other hrest
  · refine Nat.le_trans (Nat.le_of_eq ?_) h.count
    simp [standardReports, pendingReports, withMach, hpending]

/-- A statement that is followed by another one keeps the flags and the reports, and what is
pending does not grow. -/
theorem Counted.continues {frame frame' : Frame} {rest : List Frame} (h : Counted s)
    (running : s.frames = frame :: rest) (frames : s'.frames = frame' :: rest)
    (ordered : Ordered frame'.todo) (contexts : s'.contexts = s.contexts)
    (flags : SameFlags s.monitors s'.monitors)
    (pending : frame'.isPending s.monitors.crashedDuringExceptionHandling = true →
      frame.isPending s.monitors.crashedDuringExceptionHandling = true) : Counted s' := by
  refine ⟨?_, ?_⟩
  · intro other hother
    rw [frames] at hother
    cases List.mem_cons.mp hother with
    | inl heq => exact heq ▸ ordered
    | inr hrest => exact h.ordered other (running ▸ List.mem_cons_of_mem _ hrest)
  · have hcount := h.count
    simp only [standardReports, pendingReports, running, frames, contexts, flags.crashed,
      flags.handling, List.countP_cons] at hcount ⊢
    split
    · rename_i hpending
      rw [if_pos (pending hpending)] at hcount
      exact hcount
    · exact Nat.le_trans (by omega) hcount

theorem Counted.notify {environment : Environment} {isAsyncSafeEnvironment : Bool}
    {frame : Frame} {rest : List Frame} (h : Counted s)
    (running : s.frames = { frame with
      todo := .notifyFatalExceptionCaptured isAsyncSafeEnvironment :: frame.todo } :: rest)
    (ordered : Ordered frame.todo)
    {next : Statement} (hnext : frame.todo.head? = some next)
    (hsuccessor : next ∈ [Statement.activateSecondaryThread, .fillContext]) :
    Counted { s with
      monitors := s.monitors.notifyFatalExceptionCaptured environment isAsyncSafeEnvironment
      frames := frame :: rest } := by
  obtain ⟨hcrashed, hhandling⟩ := notify_flags environment s.monitors isAsyncSafeEnvironment
  refine ⟨?_, ?_⟩
  · intro other hother
    cases List.mem_cons.mp hother with
    | inl heq => exact heq ▸ ordered
    | inr hrest => exact h.ordered other (running ▸ List.mem_cons_of_mem _ hrest)
  · have hcount := h.count
    have hrest : rest.countP (Frame.isPending (s.monitors.crashedDuringExceptionHandling ||
        s.monitors.handlingFatalException)) ≤
        rest.countP (Frame.isPending s.monitors.crashedDuringExceptionHandling) :=
      List.countP_mono_left fun other _ => isPending_of_or
    have hhead : next.isPending (s.monitors.crashedDuringExceptionHandling ||
        s.monitors.handlingFatalException) frame.context = true →
        s.monitors.handlingFatalException = false := by
      simp only [List.mem_cons, List.not_mem_nil, or_false] at hsuccessor
      intro hpending
      rcases hsuccessor with rfl | rfl <;> simp_all [Statement.isPending]
    simp only [standardReports, pendingReports, running, hcrashed, hhandling, List.countP_cons,
      isPending_eq _ hnext, Bool.toNat_true] at hcount ⊢
    split
    · rename_i hpending
      rw [hhead hpending, Bool.toNat_false] at hcount
      omega
    · have hle := Bool.toNat_le s.monitors.handlingFatalException
      omega

theorem Counted.report {frame : Frame} {rest : List Frame} (h : Counted s)
    (running : s.frames = { frame with todo := .onExceptionEvent :: frame.todo } :: rest)
    (ordered : Ordered frame.todo)
    (hnext : frame.todo.head? = some .restoreOriginalHandlers) :
    Counted { s with contexts := s.contexts ++ [frame.context], frames := frame :: rest } := by
  refine ⟨?_, ?_⟩
  · intro other hother
    cases List.mem_cons.mp hother with
    | inl heq => exact heq ▸ ordered
    | inr hrest => exact h.ordered other (running ▸ List.mem_cons_of_mem _ hrest)
  · have hcount := h.count
    simp only [standardReports, pendingReports, running, List.countP_cons, List.countP_append,
      List.countP_nil, isPending_eq _ hnext] at hcount ⊢
    have hhead : ({ frame with todo := .onExceptionEvent :: frame.todo } : Frame).isPending
        s.monitors.crashedDuringExceptionHandling =
        !frame.context.crashedDuringCrashHandling := rfl
    rw [hhead] at hcount
    simp only [Statement.isPending, Bool.false_eq_true, if_false]
    omega

theorem Counted.statement {environment : Environment} {frame : Frame} {rest : List Frame}
    {statement : Statement} (h : Counted s)
    (running : s.frames = { frame with todo := statement :: frame.todo } :: rest)
    (continues : statement ≠ .forward)
    (executed : s.execute environment frame rest statement = some s') : Counted s' := by
  obtain ⟨ordered, next, hnext, hsuccessor⟩ :=
    (h.ordered _ (running ▸ List.mem_cons_self)).next continues
  cases statement with
  | notifyFatalExceptionCaptured isAsyncSafeEnvironment =>
    cases executed
    exact h.notify running ordered hnext hsuccessor
  | activateSecondaryThread =>
    cases executed
    cases List.mem_singleton.mp hsuccessor
    refine h.continues running rfl ordered rfl ⟨rfl, rfl, rfl⟩ fun hpending => ?_
    rw [isPending_eq _ hnext] at hpending
    exact hpending
  | fillContext =>
    cases executed
    cases List.mem_singleton.mp hsuccessor
    refine h.continues running rfl ordered rfl ⟨rfl, rfl, rfl⟩ fun hpending => ?_
    have hevent (context : Context) : ({ frame with context := context } : Frame).isPending
        s.monitors.crashedDuringExceptionHandling =
        !context.crashedDuringCrashHandling :=
      @isPending_eq { frame with context := context } _ _ hnext
    rw [hevent] at hpending
    simp only [Bool.not_or, Bool.and_eq_true] at hpending
    exact hpending.2
  | onExceptionEvent =>
    cases List.mem_singleton.mp hsuccessor
    rw [execute] at executed
    split at executed
    · cases executed
      exact h.report running ordered hnext
    · cases executed
      refine h.continues running rfl ordered rfl ⟨rfl, rfl, rfl⟩ fun hpending => ?_
      rw [isPending_eq _ hnext] at hpending
      cases hpending
  | restoreOriginalHandlers =>
    cases executed
    refine h.continues running rfl ordered rfl (restore_flags environment s.monitors)
      fun hpending => ?_
    rw [isPending_eq _ hnext] at hpending
    simp only [Statement.successors, List.mem_cons, List.not_mem_nil, or_false] at hsuccessor
    rcases hsuccessor with rfl | rfl <;> cases hpending
  | endHandling =>
    cases executed
    cases List.mem_singleton.mp hsuccessor
    refine h.continues running rfl ordered rfl ⟨rfl, rfl, rfl⟩ fun hpending => ?_
    rw [isPending_eq _ hnext] at hpending
    cases hpending
  | forward => exact absurd rfl continues

/-- A handler that is done leaves the ones below it. -/
theorem Counted.tail {frame : Frame} {rest : List Frame} (h : Counted s)
    (running : s.frames = frame :: rest) : Counted { s with frames := rest } := by
  refine ⟨fun other hother => h.ordered other (running ▸ List.mem_cons_of_mem _ hother), ?_⟩
  have hcount := h.count
  simp only [standardReports, pendingReports, running, List.countP_cons] at hcount ⊢
  omega

theorem Counted.step {input : Input η} (h : Counted s) (hstep : s.step input = some s') :
    Counted s' := by
  cases step_cases hstep with
  | app idle call =>
    obtain ⟨hframes, hcontexts, -, -⟩ := appCall_record call
    have hflags := appCall_flags call
    refine ⟨?_, ?_⟩
    · rw [hframes, idle]
      exact fun frame hframe => absurd hframe List.not_mem_nil
    · have hcount := h.count
      simp only [standardReports, pendingReports, hframes, hcontexts, hflags.handling,
        hflags.crashed] at hcount ⊢
      exact hcount
  | unreported source => exact h
  | enters henters => exact h.enters henters
  | statement running continues executed => exact h.statement running continues executed
  | forwards running forwarded =>
    have htail := h.tail running
    rcases forward_cases forwarded with rfl | rfl | ⟨function, rfl, -⟩ | henters
    · exact htail
    · exact ⟨htail.ordered, htail.count⟩
    · exact ⟨htail.ordered, htail.count⟩
    · exact htail.enters henters

theorem counted_launched (chosen : Chosen η) : Counted (launched chosen) :=
  ⟨fun _ hframe => absurd hframe List.not_mem_nil, Nat.le_refl 0⟩

end Process

/-- However the app installs, uninstalls and sets what is monitored, and wherever the handlers
crash themselves, at most one report of a process is not that of a crash while another one is
handled. -/
theorem standard_report_at_most_once (chosen : Chosen η) (inputs : List (Input η))
    (s : Process η) (run : exec Process.step (Process.launched chosen) inputs = some s) :
    (s.contexts.filter fun context => !context.crashedDuringCrashHandling).length ≤ 1 := by
  have halways : Always Process.step Process.Counted (Process.launched chosen) inputs :=
    always_of_invariant (fun _ h => h) (fun _ _ _ => Process.Counted.step)
      (Process.counted_launched chosen) inputs
  have hcount := (halways.exec run).count
  have hhandling := Bool.toNat_le s.monitors.handlingFatalException
  rw [← List.countP_eq_length_filter]
  unfold Process.standardReports at hcount
  omega

/-- A system in which every call succeeds, without a debugger. -/
def working : Environment := ⟨false, true, .installed⟩

/-- The numbers stand for the functions of an app with handlers of its own. -/
def handlingApp : Chosen Nat := ⟨fun _ => .handler 1, some 2, some 3⟩

/-- A signal whose handler crashes after it has filled out the context. -/
def crashInHandler : List (Input Nat) :=
  [.install working, .trap (.signal .sigsegv), .proceed working, .proceed working,
    .trap (.signal .sigbus), .proceed working]

/-- Both handlers report. -/
def bothReport : List (Input Nat) := crashInHandler ++ List.replicate 5 (.proceed working)

theorem standard_report_at_most_once_bothReport :
    ∃ s, exec Process.step (Process.launched handlingApp) bothReport = some s ∧
      s.contexts.length = 2 ∧
      (s.contexts.filter fun context => !context.crashedDuringCrashHandling).length ≤ 1 :=
  ⟨_, rfl, rfl, standard_report_at_most_once handlingApp bothReport _ rfl⟩

end SentryCocoa.CrashMonitors
