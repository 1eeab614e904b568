import SentryCocoa.ContinuousProfiler

/-! Runs of the continuous profiler: whether it goes on after a start, ends after a stop, and has
a timer exactly while it runs. -/
namespace SentryCocoa.Profiling
open SentryCocoa.Library.Machine

/-- The profiler and what it was told last. -/
structure ProfilingRun where
  profiler : SentryContinuousProfiler
  /-- A start without a later stop or backgrounding. -/
  started : Bool
  /-- A stop without a later start. -/
  stopped : Bool
  /-- The timer has fired since that stop. -/
  expired : Bool

namespace ProfilingRun
open SentryContinuousProfiler

def init (profileSessionID : Nat) : ProfilingRun where
  profiler := .init profileSessionID
  started := false
  stopped := false
  expired := false

/-- What is known when the call is made. -/
def told (s : ProfilingRun) : Call → ProfilingRun
  | .start _ => { s with started := true, stopped := false, expired := false }
  | .stop => { s with started := false, stopped := true }
  | .willResignActive => { s with started := false }
  | .timerExpired => { s with expired := s.stopped }
  | _ => s

def step (s : ProfilingRun) (call : Call) : Option ProfilingRun :=
  (s.profiler.step call).map fun profiler => { s.told call with profiler := profiler }

structure Correct (s : ProfilingRun) : Prop where
  keeps : s.started = true → s.profiler.isRunning = true
  ends : s.expired = true → s.profiler.isRunning = false
  timer : s.profiler.mainQueue = 0 → s.profiler.chunkTimer = s.profiler.isRunning
  chunks : ∀ chunk ∈ s.profiler.chunks, chunk.profilerId.isSome

/-- The timer fires while a profiler runs that was not started again after a stop, and a profiler
runs when the last queued block schedules the timer. -/
def InTime (s : ProfilingRun) : Call → Prop
  | .timerExpired => s.profiler.isRunning = true ∧ ¬(s.started = true ∧ s.profiler.stopCalled = true)
  | .scheduleTimer => s.profiler.mainQueue = 1 → s.profiler.isRunning = true
  | _ => True

/-- A stop is pending while the profiler runs. -/
structure Inv (s : ProfilingRun) : Prop where
  correct : s.Correct
  consistent : s.profiler.Consistent
  pending : s.stopped = true → s.profiler.isRunning = true → s.profiler.stopCalled = true

theorem Inv.init (profileSessionID : Nat) : (init profileSessionID).Inv where
  correct := {
    keeps := by
      rintro ⟨⟩
    ends := by
      rintro ⟨⟩
    timer := fun _ => rfl
    chunks := List.forall_mem_nil _ }
  consistent := Consistent.init profileSessionID
  pending := by
    rintro ⟨⟩

section Steps
variable {s s' : ProfilingRun}

theorem step_cases {call : Call} (hstep : s.step call = some s') :
    ∃ profiler, s.profiler.step call = some profiler ∧
      s' = { s.told call with profiler := profiler } := by
  obtain ⟨profiler, hprofiler, rfl⟩ := Option.map_eq_some_iff.mp hstep
  exact ⟨profiler, hprofiler, rfl⟩

theorem Inv.start (inv : s.Inv) (mainThread : Bool) : ({ s.told (.start mainThread) with
    profiler := s.profiler.start mainThread } : ProfilingRun).Inv := by
  have hrunning : (s.profiler.start mainThread).isRunning = true := by
    cases hrunning : s.profiler.isRunning with
    | true =>
      rw [start_of_isRunning hrunning]
      exact hrunning
    | false =>
      rw [start_of_not_isRunning hrunning]
      rfl
  refine ⟨⟨fun _ => hrunning, ?_, ?_, ?_⟩, consistent_start inv.consistent mainThread, ?_⟩
  · rintro ⟨⟩
  · intro hqueue
    dsimp only at hqueue ⊢
    rw [hrunning]
    cases hbefore : s.profiler.isRunning with
    | true =>
      rw [start_of_isRunning hbefore] at hqueue ⊢
      rw [inv.correct.timer hqueue, hbefore]
    | false =>
      rw [start_of_not_isRunning hbefore] at hqueue ⊢
      cases mainThread with
      | true => rfl
      | false => cases hqueue
  · dsimp only
    cases hbefore : s.profiler.isRunning with
    | true =>
      rw [start_of_isRunning hbefore]
      exact inv.correct.chunks
    | false =>
      rw [start_of_not_isRunning hbefore]
      exact inv.correct.chunks
  · rintro ⟨⟩

theorem Inv.stop (inv : s.Inv) :
    ({ s.told .stop with profiler := s.profiler.stop } : ProfilingRun).Inv := by
  unfold SentryContinuousProfiler.stop
  split
  · rename_i hrunning
    refine ⟨⟨?_, inv.correct.ends, inv.correct.timer, inv.correct.chunks⟩,
      ⟨inv.consistent.running, inv.consistent.observed, inv.consistent.unobserved⟩,
      fun _ _ => rfl⟩
    rintro ⟨⟩
  · rename_i hrunning
    refine ⟨⟨?_, inv.correct.ends, inv.correct.timer, inv.correct.chunks⟩, inv.consistent,
      fun _ h => absurd h hrunning⟩
    rintro ⟨⟩

theorem Inv.scheduleTimer (inv : s.Inv) (inTime : s.InTime .scheduleTimer) {profiler}
    (hstep : s.profiler.step .scheduleTimer = some profiler) :
    ({ s with profiler := profiler } : ProfilingRun).Inv := by
  unfold SentryContinuousProfiler.step at hstep
  dsimp only at hstep
  split at hstep
  · cases hstep
  · rename_i hqueue
    cases hstep
    rw [scheduledTimer_eq]
    refine ⟨⟨inv.correct.keeps, inv.correct.ends, ?_, inv.correct.chunks⟩,
      ⟨inv.consistent.running, inv.consistent.observed, inv.consistent.unobserved⟩, inv.pending⟩
    intro hlast
    dsimp only at hlast
    exact (inTime (by omega)).symm

theorem Inv.timerExpired (inv : s.Inv) (inTime : s.InTime .timerExpired)
    (htimer : s.profiler.chunkTimer = true) :
    ({ s.told .timerExpired with profiler := s.profiler.timerExpired } : ProfilingRun).Inv := by
  obtain ⟨hrunning, hpending⟩ := inTime
  have hchunks : ∀ chunk ∈ s.profiler.timerExpired.chunks, chunk.profilerId.isSome := by
    rw [chunks_timerExpired]
    refine List.forall_mem_append.mpr ⟨inv.correct.chunks, List.forall_mem_singleton.mpr ?_⟩
    rw [Option.isSome_map, ← isRunning_eq inv.consistent]
    exact hrunning
  have hconsistent := consistent_transmitChunkEnvelope inv.consistent
  have htransmitted : s.profiler.transmitChunkEnvelope.isRunning = true := by
    rw [isRunning_transmitChunkEnvelope]
    exact hrunning
  cases hstop : s.profiler.stopCalled with
  | true =>
    have hexpired : s.profiler.timerExpired =
        s.profiler.transmitChunkEnvelope.removeObserver.stopTimerAndCleanup := by
      rw [timerExpired_of_isRunning hrunning, if_pos hstop]
    refine ⟨⟨?_, ?_, ?_, hchunks⟩, ?_, ?_⟩
    · intro hstarted
      exact absurd ⟨hstarted, hstop⟩ hpending
    · intro _
      dsimp only
      rw [hexpired, isRunning_stopTimerAndCleanup]
    · intro _
      dsimp only
      rw [hexpired]
      rfl
    · dsimp only
      rw [hexpired]
      exact consistent_stopTimerAndCleanup hconsistent htransmitted
    · intro _ hafter
      dsimp only at hafter
      rw [hexpired, isRunning_stopTimerAndCleanup] at hafter
      cases hafter
  | false =>
    have hexpired : s.profiler.timerExpired = s.profiler.transmitChunkEnvelope := by
      rw [timerExpired_of_isRunning hrunning, if_neg (Bool.eq_false_iff.mp hstop)]
    have hstopped : s.stopped = true → False := by
      intro hstopped
      have := inv.pending hstopped hrunning
      rw [hstop] at this
      cases this
    refine ⟨⟨?_, fun h => absurd h hstopped, ?_, hchunks⟩, ?_, fun h => absurd h hstopped⟩
    · intro _
      dsimp only
      rw [hexpired]
      exact htransmitted
    · intro _
      dsimp only
      rw [hexpired, htransmitted]
      exact htimer
    · dsimp only
      rw [hexpired]
      exact hconsistent

theorem Inv.willResignActive (inv : s.Inv) : ({ s.told .willResignActive with
    profiler := s.profiler.willResignActive } : ProfilingRun).Inv := by
  cases hrunning : s.profiler.isRunning with
  | true =>
    rw [willResignActive_of_isRunning inv.consistent hrunning]
    refine ⟨⟨?_, fun _ => rfl, fun _ => rfl, inv.correct.chunks⟩,
      consistent_stopTimerAndCleanup inv.consistent hrunning, ?_⟩
    · rintro ⟨⟩
    · rintro _ ⟨⟩
  | false =>
    rw [willResignActive_of_not_isRunning inv.consistent hrunning]
    refine ⟨⟨?_, inv.correct.ends, inv.correct.timer, inv.correct.chunks⟩, inv.consistent,
      inv.pending⟩
    rintro ⟨⟩

theorem Inv.appendBacktrace (inv : s.Inv) {profiler : SentryProfiler}
    (hprofiler : s.profiler.currentProfiler = some profiler) (state : SentryProfilerState) :
    ({ s with profiler := { s.profiler with
      currentProfiler := some { profiler with state := state } } } : ProfilingRun).Inv := by
  have hrunning : ({ s.profiler with
      currentProfiler := some { profiler with state := state } } :
        SentryContinuousProfiler).isRunning = s.profiler.isRunning := by
    unfold isRunning
    rw [hprofiler]
    rfl
  refine ⟨⟨?_, ?_, ?_, inv.correct.chunks⟩,
    consistent_appendBacktrace inv.consistent hprofiler state, ?_⟩
  · dsimp only
    rw [hrunning]
    exact inv.correct.keeps
  · dsimp only
    rw [hrunning]
    exact inv.correct.ends
  · dsimp only
    rw [hrunning]
    exact inv.correct.timer
  · dsimp only
    rw [hrunning]
    exact inv.pending

theorem Inv.step (inv : s.Inv) {call : Call} (inTime : s.InTime call)
    (hstep : s.step call = some s') : s'.Inv := by
  obtain ⟨profiler, hprofiler, rfl⟩ := step_cases hstep
  cases call with
  | start mainThread =>
    cases hprofiler
    exact inv.start mainThread
  | stop =>
    cases hprofiler
    exact inv.stop
  | scheduleTimer => exact inv.scheduleTimer inTime hprofiler
  | timerExpired =>
    unfold SentryContinuousProfiler.step at hprofiler
    dsimp only at hprofiler
    split at hprofiler
    · rename_i htimer
      cases hprofiler
      exact inv.timerExpired inTime htimer
    · cases hprofiler
  | willResignActive =>
    cases hprofiler
    exact inv.willResignActive
  | appendBacktrace backtrace date =>
    obtain ⟨before, hbefore, rfl⟩ := Option.map_eq_some_iff.mp hprofiler
    exact inv.appendBacktrace hbefore _

theorem not_correct_scheduleTimer (late : ¬ s.InTime .scheduleTimer) {profiler}
    (hstep : s.profiler.step .scheduleTimer = some profiler) :
    ¬ ({ s with profiler := profiler } : ProfilingRun).Correct := by
  obtain ⟨hlast, hrunning⟩ := Classical.not_imp.mp late
  unfold SentryContinuousProfiler.step at hstep
  dsimp only at hstep
  rw [hlast, if_neg Nat.one_ne_zero, scheduledTimer_eq] at hstep
  cases hstep
  intro correct
  exact hrunning (correct.timer rfl).symm

/-- A timer without a profiler sends a chunk of nothing; one after a start that came too late ends
the profiler. -/
theorem Inv.not_correct_timerExpired (inv : s.Inv) (late : ¬ s.InTime .timerExpired) :
    ¬ ({ s.told .timerExpired with
      profiler := s.profiler.timerExpired } : ProfilingRun).Correct := by
  intro correct
  apply late
  have hrunning : s.profiler.isRunning = true := by
    have hchunks := correct.chunks
    dsimp only at hchunks
    rw [chunks_timerExpired] at hchunks
    have hlast := hchunks _ (List.mem_append_right _ (List.mem_singleton_self _))
    rw [Option.isSome_map, ← isRunning_eq inv.consistent] at hlast
    exact hlast
  refine ⟨hrunning, ?_⟩
  rintro ⟨hstarted, hstop⟩
  have hkeeps := correct.keeps hstarted
  dsimp only at hkeeps
  rw [timerExpired_of_isRunning hrunning, if_pos hstop, isRunning_stopTimerAndCleanup] at hkeeps
  cases hkeeps

theorem Inv.not_correct_step (inv : s.Inv) {call : Call} (late : ¬ s.InTime call)
    (hstep : s.step call = some s') : ¬ s'.Correct := by
  obtain ⟨profiler, hprofiler, rfl⟩ := step_cases hstep
  cases call with
  | start mainThread => exact absurd trivial late
  | stop => exact absurd trivial late
  | scheduleTimer => exact not_correct_scheduleTimer late hprofiler
  | timerExpired =>
    unfold SentryContinuousProfiler.step at hprofiler
    dsimp only at hprofiler
    split at hprofiler
    · cases hprofiler
      exact inv.not_correct_timerExpired late
    · cases hprofiler
  | willResignActive => exact absurd trivial late
  | appendBacktrace backtrace date => exact absurd trivial late

end Steps

/-- The profiler does as it was told exactly in the runs in which the timer finds a profiler that
was not started again after a stop and the last block finds a profiler. -/
theorem always_runs_iff_inTime (profileSessionID : Nat) (calls : List Call) :
    Always step Correct (init profileSessionID) calls ↔
      Allowed step InTime (init profileSessionID) calls :=
  always_iff_allowed (fun _ inv => inv.correct) (fun _ _ _ inv hok hstep => inv.step hok hstep)
    (fun _ _ _ inv hlate hstep => inv.not_correct_step hlate hstep) (Inv.init profileSessionID)
    calls

/-- A start while a stop is pending does not take the stop back. -/
theorem start_after_stop_ends :
    ¬ ∀ calls, Always step Correct (init 1) calls := by
  intro h
  have hrun : (exec step (init 1)
      [.start true, .stop, .start true, .timerExpired]).map (fun s =>
        (s.started, s.profiler.isRunning)) = some (true, false) := by
    decide +kernel
  obtain ⟨s, hexec, hs⟩ := Option.map_eq_some_iff.mp hrun
  obtain ⟨hstarted, hrunning⟩ := Prod.mk.inj hs
  have hkeeps := ((h _).exec hexec).keeps hstarted
  rw [hrunning] at hkeeps
  cases hkeeps

end ProfilingRun

end SentryCocoa.Profiling
