import SentryCocoa.TraceProfiler
import Mathlib.Tactic.Linarith

/-! The timeout of the trace profiler. One timer serves the profilers one after the other; it is
scheduled only when there is none. -/
namespace SentryCocoa.TraceProfiling
open SentryCocoa.Library.Machine SentryCocoa.Library.Ownership

namespace SentryTraceProfiler

/-- Profilers stop and no profiler starts. -/
structure Stops (s s' : SentryTraceProfiler) : Prop where
  profilers : ∀ (i : Nat) (profiler : SentryProfiler), s'.profilers[i]? = some profiler →
    ∃ before, s.profilers[i]? = some before ∧ before.startDate = profiler.startDate ∧
      (profiler.isRunning = true → before.isRunning = true)
  traceProfiler : s'.traceProfiler = s.traceProfiler
  timeoutTimer : s'.timeoutTimer = s.timeoutTimer

section Stops
variable {s s' : SentryTraceProfiler}

theorem Stops.refl (s : SentryTraceProfiler) : s.Stops s :=
  ⟨fun _ profiler hprofiler => ⟨profiler, hprofiler, rfl, id⟩, rfl, rfl⟩

theorem stops_stopForReason (s : SentryTraceProfiler) (profiler : Nat)
    (reason : SentryProfilerTruncationReason) : s.Stops (s.stopForReason profiler reason) := by
  refine ⟨fun i after hafter => ?_, rfl, rfl⟩
  unfold stopForReason at hafter
  dsimp only at hafter
  rw [List.getElem?_modify] at hafter
  obtain ⟨before, hbefore, rfl⟩ := Option.map_eq_some_iff.mp hafter
  refine ⟨before, hbefore, ?_⟩
  split
  · refine ⟨rfl, fun h => ?_⟩
    cases h
  · exact ⟨rfl, id⟩

theorem stops_cleanUpProfiler (s : SentryTraceProfiler) (profiler tracer : Nat) :
    s.Stops (s.cleanUpProfiler profiler tracer) := by
  unfold cleanUpProfiler
  dsimp only
  split
  · split
    · have hstops := stops_stopForReason s profiler .normal
      exact ⟨hstops.profilers, rfl, rfl⟩
    · exact ⟨(Stops.refl s).profilers, rfl, rfl⟩
  · exact ⟨(Stops.refl s).profilers, rfl, rfl⟩

theorem stops_discardProfilerForTracer (s : SentryTraceProfiler) (tracer : Nat) :
    s.Stops (s.discardProfilerForTracer tracer) := by
  unfold discardProfilerForTracer
  split
  · exact Stops.refl s
  · exact stops_cleanUpProfiler s _ tracer

theorem stops_backgroundAbort (s : SentryTraceProfiler) : s.Stops s.backgroundAbort := by
  refine ⟨fun i after hafter => ?_, rfl, rfl⟩
  unfold backgroundAbort at hafter
  dsimp only at hafter
  rw [List.getElem?_map] at hafter
  obtain ⟨before, hbefore, rfl⟩ := Option.map_eq_some_iff.mp hafter
  refine ⟨before, hbefore, ?_⟩
  split
  · refine ⟨rfl, fun h => ?_⟩
    cases h
  · exact ⟨rfl, id⟩

/-- The profiler that runs gets one more tracer, or a new profiler starts; its timer is scheduled
at once only on the main thread. -/
theorem startWithTracer_cases (s : SentryTraceProfiler) (traceId : Nat) (date : ℚ)
    (mainThread : Bool) :
    ((∃ profiler ∈ s.traceProfiler, s.isRunning profiler = true) ∧
        s.Stops (s.startWithTracer traceId date mainThread)) ∨
      ((∀ profiler ∈ s.traceProfiler, s.isRunning profiler = false) ∧
        (s.startWithTracer traceId date mainThread).profilers = s.profilers ++ [.init date] ∧
        (s.startWithTracer traceId date mainThread).traceProfiler = some s.profilers.length ∧
        (s.startWithTracer traceId date mainThread).timeoutTimer =
          if mainThread then some (s.timeoutTimer.getD date) else s.timeoutTimer) := by
  unfold startWithTracer
  rcases s.startOrFind_cases date with ⟨profiler, hfound, hcurrent, hrunning⟩ | ⟨hstopped, hnew⟩
  · rw [hfound]
    exact Or.inl ⟨⟨profiler, hcurrent, hrunning⟩, (Stops.refl s).profilers, rfl, rfl⟩
  · rw [hnew]
    refine Or.inr ⟨hstopped, ?_⟩
    dsimp only
    rw [if_pos rfl]
    unfold scheduleTimeoutTimer scheduledTimeoutTimer trackProfilerForTracer
    cases mainThread with
    | true =>
      cases htimer : s.timeoutTimer with
      | none => exact ⟨rfl, rfl, rfl⟩
      | some scheduled => exact ⟨rfl, rfl, rfl⟩
    | false => exact ⟨rfl, rfl, rfl⟩

end Stops

end SentryTraceProfiler

/-- The time, and the profilers that a timeout has stopped with their starts and ends. -/
structure Timing where
  profiler : SentryTraceProfiler
  date : ℚ
  timeouts : List (ℚ × ℚ)

namespace Timing

inductive Call where
  | startWithTracer (traceId : Nat) (mainThread : Bool)
  | scheduleTimeoutTimer
  | timeoutTimerExpired
  | profilerForFinishedTracer (internalTraceId : Nat)
  | discardProfilerForTracer (internalTraceId : Nat)
  | backgroundAbort

def init (date : ℚ) : Timing := ⟨.init, date, []⟩

/-- The profiler that a timeout stops. -/
def current (s : Timing) : Option SentryProfiler :=
  (s.profiler.traceProfiler.bind fun profiler => s.profiler.profilers[profiler]?).filter
    SentryProfiler.isRunning

/-- Calls come in the order of their times; a timer does not fire before it is due. -/
def step (s : Timing) (input : ℚ × Call) : Option Timing :=
  if input.1 < s.date then none
  else match input.2 with
    | .startWithTracer traceId mainThread => some { s with
        date := input.1
        profiler := s.profiler.startWithTracer traceId input.1 mainThread }
    | .scheduleTimeoutTimer =>
      if s.profiler.mainQueue = 0 then none
      else some { s with
        date := input.1
        profiler := { s.profiler with
          mainQueue := s.profiler.mainQueue - 1 }.scheduledTimeoutTimer input.1 }
    | .timeoutTimerExpired =>
      if s.profiler.timeoutTimer.any fun scheduled =>
          scheduled + kSentryProfilerTimeoutInterval ≤ input.1 then
        some {
          date := input.1
          profiler := s.profiler.timeoutTimerExpired
          timeouts := s.timeouts ++
            s.current.toList.map fun profiler => (profiler.startDate, input.1) }
      else none
    | .profilerForFinishedTracer tracer => some { s with
        date := input.1
        profiler := (s.profiler.profilerForFinishedTracer tracer).2 }
    | .discardProfilerForTracer tracer => some { s with
        date := input.1
        profiler := s.profiler.discardProfilerForTracer tracer }
    | .backgroundAbort => some { s with
        date := input.1
        profiler := s.profiler.backgroundAbort }

/-- A timeout stops a profiler after the whole interval, and each profiler that runs has a timer
that is due by then. -/
structure Correct (s : Timing) : Prop where
  full : ∀ timeout ∈ s.timeouts, timeout.1 + kSentryProfilerTimeoutInterval ≤ timeout.2
  timer : ∀ (i : Nat) (profiler : SentryProfiler), s.profiler.profilers[i]? = some profiler →
    profiler.isRunning = true →
    ∃ scheduled ∈ s.profiler.timeoutTimer, scheduled + kSentryProfilerTimeoutInterval ≤
      profiler.startDate + kSentryProfilerTimeoutInterval

/-- A profiler starts on the main thread or while a timer is pending, and a timer from before the
start of the running profiler does not fire before the whole interval has passed. -/
def InTime (s : Timing) (input : ℚ × Call) : Prop :=
  match input.2 with
  | .startWithTracer _ mainThread => s.current = none →
    mainThread = true ∨ s.profiler.timeoutTimer.isSome
  | .timeoutTimerExpired => ∀ scheduled ∈ s.profiler.timeoutTimer, ∀ profiler ∈ s.current,
    scheduled < profiler.startDate →
      profiler.startDate + kSentryProfilerTimeoutInterval ≤ input.1
  | _ => True

structure Inv (s : Timing) : Prop where
  correct : s.Correct
  current : ∀ (i : Nat) (profiler : SentryProfiler), s.profiler.profilers[i]? = some profiler →
    profiler.isRunning = true → s.profiler.traceProfiler = some i
  scheduled : ∀ scheduled ∈ s.profiler.timeoutTimer, scheduled ≤ s.date

theorem Inv.init (date : ℚ) : (init date).Inv where
  correct := {
    full := List.forall_mem_nil _
    timer := by
      rintro i profiler ⟨⟩ }
  current := by
    rintro i profiler ⟨⟩
  scheduled := by
    rintro scheduled ⟨⟩

section Steps
variable {s s' : Timing}

theorem current_eq_none_iff : s.current = none ↔
    ∀ profiler ∈ s.profiler.traceProfiler, s.profiler.isRunning profiler = false := by
  unfold current SentryTraceProfiler.isRunning
  cases s.profiler.traceProfiler with
  | none => simp
  | some profiler =>
    simp only [Option.bind_some, Option.mem_def, Option.some.injEq, forall_eq']
    cases s.profiler.profilers[profiler]? <;> simp

theorem mem_current {profiler : SentryProfiler} : profiler ∈ s.current ↔
    ∃ i, s.profiler.traceProfiler = some i ∧ s.profiler.profilers[i]? = some profiler ∧
      profiler.isRunning = true := by
  unfold current
  simp only [Option.mem_def, Option.filter_eq_some_iff, Option.bind_eq_some_iff]
  constructor
  · rintro ⟨⟨i, hi, hprofiler⟩, hrunning⟩
    exact ⟨i, hi, hprofiler, hrunning⟩
  · rintro ⟨i, hi, hprofiler, hrunning⟩
    exact ⟨⟨i, hi, hprofiler⟩, hrunning⟩

theorem Inv.running (inv : s.Inv) {i : Nat} {profiler : SentryProfiler}
    (hprofiler : s.profiler.profilers[i]? = some profiler) (hrunning : profiler.isRunning = true) :
    profiler ∈ s.current :=
  mem_current.mpr ⟨i, inv.current i profiler hprofiler hrunning, hprofiler, hrunning⟩

/-- Profilers that stop, and time that passes, keep what holds. -/
theorem Inv.stops (inv : s.Inv) {profiler : SentryTraceProfiler}
    (stops : s.profiler.Stops profiler) {date : ℚ} (hdate : s.date ≤ date) :
    ({ s with date := date, profiler := profiler } : Timing).Inv := by
  refine ⟨⟨inv.correct.full, ?_⟩, ?_, ?_⟩
  · intro i after hafter hrunning
    obtain ⟨before, hbefore, hstart, hrun⟩ := stops.profilers i after hafter
    change ∃ scheduled ∈ profiler.timeoutTimer, _
    rw [← hstart, stops.timeoutTimer]
    exact inv.correct.timer i before hbefore (hrun hrunning)
  · intro i after hafter hrunning
    obtain ⟨before, hbefore, -, hrun⟩ := stops.profilers i after hafter
    change profiler.traceProfiler = some i
    rw [stops.traceProfiler]
    exact inv.current i before hbefore (hrun hrunning)
  · intro scheduled hscheduled
    change scheduled ∈ profiler.timeoutTimer at hscheduled
    rw [stops.timeoutTimer] at hscheduled
    exact (inv.scheduled scheduled hscheduled).trans hdate

theorem Inv.startWithTracer (inv : s.Inv) {date : ℚ} {traceId : Nat} {mainThread : Bool}
    (inTime : s.InTime (date, .startWithTracer traceId mainThread)) (hdate : s.date ≤ date) :
    ({ s with
      date := date
      profiler := s.profiler.startWithTracer traceId date mainThread } : Timing).Inv := by
  rcases s.profiler.startWithTracer_cases traceId date mainThread with
    ⟨-, hstops⟩ | ⟨hstopped, hprofilers, hcurrent, htimer⟩
  · exact inv.stops hstops hdate
  · have hnone := current_eq_none_iff.mpr hstopped
    have hnew : ∀ (i : Nat) (profiler : SentryProfiler),
        (s.profiler.startWithTracer traceId date mainThread).profilers[i]? = some profiler →
          profiler.isRunning = true → i = s.profiler.profilers.length ∧ profiler = .init date := by
      intro i profiler hprofiler hrunning
      rw [hprofilers] at hprofiler
      rcases Nat.lt_or_ge i s.profiler.profilers.length with hlt | hge
      · rw [List.getElem?_append_left hlt] at hprofiler
        have hsome := inv.running hprofiler hrunning
        rw [hnone] at hsome
        cases hsome
      · rw [List.getElem?_append_right hge, List.getElem?_singleton] at hprofiler
        split at hprofiler
        · cases hprofiler
          exact ⟨by omega, rfl⟩
        · cases hprofiler
    have hscheduled : ∀ scheduled ∈
        (s.profiler.startWithTracer traceId date mainThread).timeoutTimer, scheduled ≤ date := by
      intro scheduled hscheduled
      rw [htimer] at hscheduled
      split at hscheduled
      · cases hbefore : s.profiler.timeoutTimer with
        | none =>
          rw [hbefore] at hscheduled
          cases hscheduled
          exact le_refl _
        | some before =>
          rw [hbefore] at hscheduled
          cases hscheduled
          exact (inv.scheduled _ hbefore).trans hdate
      · exact (inv.scheduled _ hscheduled).trans hdate
    have hpending : (s.profiler.startWithTracer traceId date mainThread).timeoutTimer.isSome := by
      rw [htimer]
      rcases inTime hnone with hmain | hsome
      · rw [if_pos hmain]
        rfl
      · split
        · rfl
        · exact hsome
    obtain ⟨pending, hpending⟩ := Option.isSome_iff_exists.mp hpending
    refine ⟨⟨inv.correct.full, ?_⟩, ?_, hscheduled⟩
    · intro i profiler hprofiler hrunning
      obtain ⟨-, rfl⟩ := hnew i profiler hprofiler hrunning
      have hle := hscheduled pending hpending
      exact ⟨pending, hpending, by simpa [SentryProfiler.init] using hle⟩
    · intro i profiler hprofiler hrunning
      obtain ⟨rfl, -⟩ := hnew i profiler hprofiler hrunning
      exact hcurrent

/-- A profiler that runs has a timer already, so the block does not schedule another. -/
theorem Inv.scheduleTimeoutTimer (inv : s.Inv) {date : ℚ} (hdate : s.date ≤ date) :
    ({ s with
      date := date
      profiler := { s.profiler with
        mainQueue := s.profiler.mainQueue - 1 }.scheduledTimeoutTimer date } : Timing).Inv := by
  unfold SentryTraceProfiler.scheduledTimeoutTimer
  dsimp only
  split
  · have hstops : s.profiler.Stops { s.profiler with mainQueue := s.profiler.mainQueue - 1 } :=
      ⟨(SentryTraceProfiler.Stops.refl s.profiler).profilers, rfl, rfl⟩
    exact inv.stops hstops hdate
  · rename_i hnone
    rw [Bool.not_eq_true, Option.isSome_eq_false_iff, Option.isNone_iff_eq_none] at hnone
    refine ⟨⟨inv.correct.full, ?_⟩, inv.current, ?_⟩
    · intro i profiler hprofiler hrunning
      obtain ⟨scheduled, hscheduled, -⟩ := inv.correct.timer i profiler hprofiler hrunning
      rw [hnone] at hscheduled
      cases hscheduled
    · rintro scheduled ⟨⟩
      exact le_refl _

/-- No profiler runs after the timeout, since only the current one did. -/
theorem Inv.idle_timeoutTimerExpired (inv : s.Inv) {i : Nat} {profiler : SentryProfiler}
    (hprofiler : s.profiler.timeoutTimerExpired.profilers[i]? = some profiler) :
    ¬ profiler.isRunning = true := by
  intro hrun
  have hstops : s.profiler.Stops { s.profiler.timeoutTimerExpired with
      timeoutTimer := s.profiler.timeoutTimer } := by
    unfold SentryTraceProfiler.timeoutTimerExpired
    dsimp only
    split
    · exact SentryTraceProfiler.Stops.refl _
    · exact s.profiler.stops_stopForReason _ _
  obtain ⟨before, hbefore, -, hran⟩ := hstops.profilers i profiler hprofiler
  have hexpired : s.profiler.timeoutTimerExpired.isRunning i = true := by
    unfold SentryTraceProfiler.isRunning
    rw [hprofiler]
    exact hrun
  rw [s.profiler.isRunning_timeoutTimerExpired, inv.current i before hbefore (hran hrun)]
    at hexpired
  simp at hexpired

theorem Inv.timeoutTimerExpired (inv : s.Inv) {date : ℚ}
    (inTime : s.InTime (date, .timeoutTimerExpired)) {scheduled : ℚ}
    (hscheduled : s.profiler.timeoutTimer = some scheduled)
    (hdue : scheduled + kSentryProfilerTimeoutInterval ≤ date) :
    ({
      date := date
      profiler := s.profiler.timeoutTimerExpired
      timeouts := s.timeouts ++
        s.current.toList.map fun profiler => (profiler.startDate, date) } : Timing).Inv := by
  refine ⟨⟨?_, fun _ _ hprofiler hrun => absurd hrun (inv.idle_timeoutTimerExpired hprofiler)⟩,
    fun _ _ hprofiler hrun => absurd hrun (inv.idle_timeoutTimerExpired hprofiler), ?_⟩
  · refine List.forall_mem_append.mpr ⟨inv.correct.full, ?_⟩
    intro timeout htimeout
    obtain ⟨profiler, hprofiler, rfl⟩ := List.mem_map.mp htimeout
    have hcurrent := Option.mem_toList.mp hprofiler
    rcases lt_or_ge scheduled profiler.startDate with hearly | hlate
    · exact inTime scheduled hscheduled profiler hcurrent hearly
    · dsimp only
      linarith
  · intro other hother
    obtain ⟨profilers, hexpired, -⟩ := s.profiler.timeoutTimerExpired_cases
    dsimp only at hother
    rw [hexpired] at hother
    cases hother

/-- The guard of a timer that fires. -/
theorem timeoutTimerExpired_cases {date : ℚ}
    (hstep : s.step (date, .timeoutTimerExpired) = some s') :
    ∃ scheduled, s.profiler.timeoutTimer = some scheduled ∧
      scheduled + kSentryProfilerTimeoutInterval ≤ date ∧ s' = {
        date := date
        profiler := s.profiler.timeoutTimerExpired
        timeouts := s.timeouts ++
          s.current.toList.map fun profiler => (profiler.startDate, date) } := by
  unfold step at hstep
  dsimp only at hstep
  split at hstep
  · cases hstep
  · split at hstep
    · rename_i hdue
      obtain ⟨scheduled, hscheduled, hdue⟩ := (Option.any_eq_true _ _).mp hdue
      exact ⟨scheduled, hscheduled, of_decide_eq_true hdue, (Option.some.inj hstep).symm⟩
    · cases hstep

/-- Time does not go back. -/
theorem date_le_of_step {input : ℚ × Call} (hstep : s.step input = some s') :
    s.date ≤ input.1 := by
  unfold step at hstep
  split at hstep
  · cases hstep
  · rename_i hdate
    exact not_lt.mp hdate

theorem Inv.step (inv : s.Inv) {input : ℚ × Call} (inTime : s.InTime input)
    (hstep : s.step input = some s') : s'.Inv := by
  obtain ⟨date, call⟩ := input
  have hdate : s.date ≤ date := date_le_of_step hstep
  have hpast : ¬ date < s.date := not_lt.mpr hdate
  cases call with
  | timeoutTimerExpired =>
    obtain ⟨scheduled, hscheduled, hdue, rfl⟩ := timeoutTimerExpired_cases hstep
    exact inv.timeoutTimerExpired inTime hscheduled hdue
  | startWithTracer traceId mainThread =>
    simp only [Timing.step, if_neg hpast] at hstep
    cases hstep
    exact inv.startWithTracer inTime hdate
  | scheduleTimeoutTimer =>
    simp only [Timing.step, if_neg hpast] at hstep
    split at hstep
    · cases hstep
    · cases hstep
      exact inv.scheduleTimeoutTimer hdate
  | profilerForFinishedTracer tracer =>
    simp only [Timing.step, if_neg hpast, SentryTraceProfiler.profilerForFinishedTracer_eq]
      at hstep
    cases hstep
    exact inv.stops (s.profiler.stops_discardProfilerForTracer tracer) hdate
  | discardProfilerForTracer tracer =>
    simp only [Timing.step, if_neg hpast] at hstep
    cases hstep
    exact inv.stops (s.profiler.stops_discardProfilerForTracer tracer) hdate
  | backgroundAbort =>
    simp only [Timing.step, if_neg hpast] at hstep
    cases hstep
    exact inv.stops s.profiler.stops_backgroundAbort hdate

/-- A profiler that starts elsewhere runs without a timer. -/
theorem not_correct_startWithTracer {date : ℚ} {traceId : Nat} {mainThread : Bool}
    (late : ¬ s.InTime (date, .startWithTracer traceId mainThread)) :
    ¬ ({ s with
      date := date
      profiler := s.profiler.startWithTracer traceId date mainThread } : Timing).Correct := by
  unfold InTime at late
  dsimp only at late
  push Not at late
  obtain ⟨hnone, hmain, htimer⟩ := late
  intro correct
  rcases s.profiler.startWithTracer_cases traceId date mainThread with
    ⟨⟨profiler, hprofiler, hrunning⟩, -⟩ | ⟨-, hprofilers, -, htimer'⟩
  · rw [current_eq_none_iff.mp hnone profiler hprofiler] at hrunning
    cases hrunning
  · have hnew : (s.profiler.startWithTracer traceId date mainThread).profilers[
        s.profiler.profilers.length]? = some (.init date) := by
      rw [hprofilers]
      exact List.getElem?_concat_length
    obtain ⟨scheduled, hscheduled, -⟩ := correct.timer _ _ hnew rfl
    dsimp only at hscheduled
    rw [htimer', if_neg hmain] at hscheduled
    rw [hscheduled] at htimer
    exact htimer rfl

/-- A timer from before the start stops the profiler early. -/
theorem not_correct_timeoutTimerExpired {date : ℚ}
    (late : ¬ s.InTime (date, .timeoutTimerExpired)) (profiler : SentryTraceProfiler) :
    ¬ ({
      date := date
      profiler := profiler
      timeouts := s.timeouts ++
        s.current.toList.map fun profiler => (profiler.startDate, date) } : Timing).Correct := by
  unfold InTime at late
  dsimp only at late
  push Not at late
  obtain ⟨scheduled, -, stopped, hstopped, -, hshort⟩ := late
  intro correct
  have hmem := List.mem_map_of_mem (f := fun profiler => (profiler.startDate, date))
    (Option.mem_toList.mpr hstopped)
  exact absurd (correct.full _ (List.mem_append_right _ hmem)) (not_le.mpr hshort)

theorem not_correct_step {input : ℚ × Call} (late : ¬ s.InTime input)
    (hstep : s.step input = some s') : ¬ s'.Correct := by
  obtain ⟨date, call⟩ := input
  have hpast : ¬ date < s.date := not_lt.mpr (date_le_of_step hstep)
  cases call with
  | timeoutTimerExpired =>
    obtain ⟨scheduled, -, -, rfl⟩ := timeoutTimerExpired_cases hstep
    exact not_correct_timeoutTimerExpired late _
  | startWithTracer traceId mainThread =>
    simp only [step, if_neg hpast] at hstep
    cases hstep
    exact not_correct_startWithTracer late
  | scheduleTimeoutTimer => exact absurd trivial late
  | profilerForFinishedTracer tracer => exact absurd trivial late
  | discardProfilerForTracer tracer => exact absurd trivial late
  | backgroundAbort => exact absurd trivial late

end Steps

end Timing

end SentryCocoa.TraceProfiling
