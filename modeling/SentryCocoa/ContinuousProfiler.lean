import SentryCocoa.ProfilerState
import SentryCocoa.Library.Machine

/-! The continuous profiler. A start queues the block that schedules the chunk timer; a stop takes
effect when the timer fires the next time. -/
namespace SentryCocoa.Profiling
open SentryCocoa.Library.Machine

structure SentryProfiler where
  profilerId : Nat
  isRunning : Bool
  state : SentryProfilerState

/-- A chunk is sent for the profiler that exists, if any. -/
structure Chunk where
  profilerId : Option Nat
  data : Option ProfilingData

/-- The notification center holds one observer for each token. -/
structure SentryContinuousProfiler where
  currentProfiler : Option SentryProfiler
  chunkTimer : Bool
  profileSessionID : Nat
  stopCalled : Bool
  observerToken : Option Nat
  observers : List Nat
  nextToken : Nat
  mainQueue : Nat
  chunks : List Chunk

namespace SentryContinuousProfiler

/-- What happens to the profiler. A start of the main thread schedules the timer at once. -/
inductive Call where
  | start (mainThread : Bool)
  | stop
  | scheduleTimer
  | timerExpired
  | willResignActive
  | appendBacktrace (backtrace : Backtrace) (date : ℚ)

variable (s : SentryContinuousProfiler)

def init (profileSessionID : Nat) : SentryContinuousProfiler where
  currentProfiler := none
  chunkTimer := false
  profileSessionID := profileSessionID
  stopCalled := false
  observerToken := none
  observers := []
  nextToken := 0
  mainQueue := 0
  chunks := []

def isRunning : Bool := s.currentProfiler.any SentryProfiler.isRunning

def disableTimer : SentryContinuousProfiler := { s with chunkTimer := false }

def transmitChunkEnvelope : SentryContinuousProfiler := { s with
  currentProfiler := s.currentProfiler.map fun profiler =>
    { profiler with state := profiler.state.clear }
  chunks := s.chunks ++ [⟨s.currentProfiler.map SentryProfiler.profilerId,
    s.currentProfiler.map fun profiler => profiler.state.copyProfilingData⟩] }

/-- The block that schedules the timer. -/
def scheduledTimer : SentryContinuousProfiler :=
  if s.chunkTimer then s else { s with chunkTimer := true }

def scheduleTimer (mainThread : Bool) : SentryContinuousProfiler :=
  if mainThread then s.scheduledTimer else { s with mainQueue := s.mainQueue + 1 }

def addObserver : SentryContinuousProfiler := { s with
  observerToken := some s.nextToken
  observers := s.observers ++ [s.nextToken]
  nextToken := s.nextToken + 1 }

def removeObserver : SentryContinuousProfiler := { s with
  observers := s.observers.filter fun observer => s.observerToken ≠ some observer }

def stopTimerAndCleanup : SentryContinuousProfiler :=
  { s.disableTimer with currentProfiler := none }

def start (mainThread : Bool) : SentryContinuousProfiler :=
  if s.isRunning then s
  else (SentryContinuousProfiler.scheduleTimer { s with
    currentProfiler := some ⟨s.profileSessionID, true, .init⟩
    stopCalled := false } mainThread).addObserver

def stop : SentryContinuousProfiler :=
  if s.isRunning then { s with stopCalled := true } else s

def timerExpired : SentryContinuousProfiler :=
  let s := if s.isRunning then s else s.disableTimer
  let s := s.transmitChunkEnvelope
  if s.stopCalled then s.removeObserver.stopTimerAndCleanup else s

/-- Each observer takes away the one of the last token and stops. -/
def willResignActive : SentryContinuousProfiler :=
  s.observers.foldl (fun s _ => s.removeObserver.stopTimerAndCleanup) s

/-- The timer fires only while there is one, a block runs when it is queued. -/
def step : Call → Option SentryContinuousProfiler
  | .start mainThread => some (s.start mainThread)
  | .stop => some s.stop
  | .scheduleTimer =>
    if s.mainQueue = 0 then none
    else some { s with mainQueue := s.mainQueue - 1 }.scheduledTimer
  | .timerExpired => if s.chunkTimer then some s.timerExpired else none
  | .willResignActive => some s.willResignActive
  | .appendBacktrace backtrace date => s.currentProfiler.map fun profiler => { s with
      currentProfiler := some { profiler with
        state := profiler.state.appendBacktrace backtrace date } }

/-! What each call does. -/

/-- One observer is registered, for the last token, while a profiler runs. -/
structure Consistent : Prop where
  running : ∀ profiler ∈ s.currentProfiler, profiler.isRunning = true
  observed : s.currentProfiler.isSome → ∃ token, s.observerToken = some token ∧
    s.observers = [token]
  unobserved : s.currentProfiler = none → s.observers = []

theorem start_of_isRunning {s : SentryContinuousProfiler} {mainThread : Bool}
    (hrunning : s.isRunning = true) : s.start mainThread = s := by
  unfold start
  rw [if_pos hrunning]

theorem scheduledTimer_eq : s.scheduledTimer = { s with chunkTimer := true } := by
  unfold scheduledTimer
  split
  · rename_i htimer
    rw [← htimer]
  · rfl

/-- A profiler, an observer, and the timer or the block for it. -/
theorem start_of_not_isRunning {s : SentryContinuousProfiler} {mainThread : Bool}
    (hrunning : s.isRunning = false) : s.start mainThread = { s with
      currentProfiler := some ⟨s.profileSessionID, true, .init⟩
      stopCalled := false
      chunkTimer := mainThread || s.chunkTimer
      mainQueue := if mainThread then s.mainQueue else s.mainQueue + 1
      observerToken := some s.nextToken
      observers := s.observers ++ [s.nextToken]
      nextToken := s.nextToken + 1 } := by
  unfold start
  rw [if_neg (Bool.eq_false_iff.mp hrunning)]
  unfold scheduleTimer addObserver
  cases mainThread with
  | true =>
    rw [if_pos rfl, scheduledTimer_eq]
    rfl
  | false => rfl

theorem Consistent.init (profileSessionID : Nat) : (init profileSessionID).Consistent where
  running := by
    rintro profiler ⟨⟩
  observed := by
    rintro ⟨⟩
  unobserved := fun _ => rfl

section Consistent
variable {s} (consistent : s.Consistent)
include consistent

theorem isRunning_eq : s.isRunning = s.currentProfiler.isSome := by
  unfold isRunning
  cases hprofiler : s.currentProfiler with
  | none => rfl
  | some profiler => exact consistent.running profiler hprofiler

theorem currentProfiler_eq_none (hrunning : s.isRunning = false) : s.currentProfiler = none := by
  rw [isRunning_eq consistent] at hrunning
  exact Option.isSome_eq_false_iff.mp hrunning |> Option.isNone_iff_eq_none.mp

theorem observers_removeObserver (hrunning : s.isRunning = true) :
    s.removeObserver.observers = [] := by
  rw [isRunning_eq consistent] at hrunning
  obtain ⟨token, htoken, hobservers⟩ := consistent.observed hrunning
  unfold removeObserver
  dsimp only
  rw [hobservers, htoken]
  simp

theorem consistent_stopTimerAndCleanup (hrunning : s.isRunning = true) :
    s.removeObserver.stopTimerAndCleanup.Consistent where
  running := by
    rintro profiler ⟨⟩
  observed := by
    rintro ⟨⟩
  unobserved := fun _ => observers_removeObserver consistent hrunning

theorem willResignActive_of_isRunning (hrunning : s.isRunning = true) :
    s.willResignActive = s.removeObserver.stopTimerAndCleanup := by
  rw [isRunning_eq consistent] at hrunning
  obtain ⟨token, -, hobservers⟩ := consistent.observed hrunning
  unfold willResignActive
  rw [hobservers]
  rfl

theorem willResignActive_of_not_isRunning (hrunning : s.isRunning = false) :
    s.willResignActive = s := by
  unfold willResignActive
  rw [consistent.unobserved (currentProfiler_eq_none consistent hrunning)]
  rfl

theorem consistent_start (mainThread : Bool) : (s.start mainThread).Consistent := by
  cases hrunning : s.isRunning with
  | true =>
    rw [start_of_isRunning hrunning]
    exact consistent
  | false =>
    have hnone := currentProfiler_eq_none consistent hrunning
    rw [start_of_not_isRunning hrunning]
    refine ⟨?_, fun _ => ⟨s.nextToken, rfl, ?_⟩, ?_⟩
    · rintro profiler ⟨⟩
      rfl
    · dsimp only
      rw [consistent.unobserved hnone, List.nil_append]
    · rintro ⟨⟩

theorem consistent_transmitChunkEnvelope : s.transmitChunkEnvelope.Consistent := by
  unfold transmitChunkEnvelope
  refine ⟨?_, ?_, ?_⟩
  · intro profiler hprofiler
    obtain ⟨before, hbefore, rfl⟩ := Option.map_eq_some_iff.mp hprofiler
    exact consistent.running before hbefore
  · intro hsome
    rw [Option.isSome_map] at hsome
    exact consistent.observed hsome
  · intro hnone
    exact consistent.unobserved (Option.map_eq_none_iff.mp hnone)

theorem consistent_appendBacktrace {profiler : SentryProfiler}
    (hprofiler : s.currentProfiler = some profiler) (state : SentryProfilerState) :
    ({ s with currentProfiler := some { profiler with state := state } } :
      SentryContinuousProfiler).Consistent := by
  refine ⟨?_, fun _ => consistent.observed (by rw [hprofiler]; rfl), ?_⟩
  · rintro _ ⟨⟩
    exact consistent.running profiler hprofiler
  · rintro ⟨⟩

end Consistent

@[simp] theorem isRunning_transmitChunkEnvelope :
    s.transmitChunkEnvelope.isRunning = s.isRunning := by
  unfold isRunning transmitChunkEnvelope
  cases s.currentProfiler <;> rfl

@[simp] theorem isRunning_stopTimerAndCleanup : s.stopTimerAndCleanup.isRunning = false := rfl

theorem timerExpired_of_isRunning {s : SentryContinuousProfiler} (hrunning : s.isRunning = true) :
    s.timerExpired =
      if s.stopCalled then s.transmitChunkEnvelope.removeObserver.stopTimerAndCleanup
      else s.transmitChunkEnvelope := by
  unfold timerExpired
  dsimp only
  rw [if_pos hrunning]
  rfl

/-- A chunk is sent whether there is a profiler or not. -/
theorem chunks_timerExpired :
    s.timerExpired.chunks = s.chunks ++ [⟨s.currentProfiler.map SentryProfiler.profilerId,
      s.currentProfiler.map fun profiler => profiler.state.copyProfilingData⟩] := by
  unfold timerExpired
  dsimp only
  split <;> split <;> rfl

end SentryContinuousProfiler

end SentryCocoa.Profiling
