import SentryCocoa.TraceProfiler

/-! Tracers that start and end at the same time. A start looks for a running profiler and tracks
its tracer in two steps, and the ends of other tracers may come between them. -/
namespace SentryCocoa.TraceProfiling
open SentryCocoa.Library.Machine SentryCocoa.Library.Ownership

/-- A start that has found or made its profiler. -/
structure Starting where
  traceId : Nat
  profiler : Nat
  isNew : Bool
  deriving DecidableEq

/-- What has happened: a tracer was tracked, or it went, with the count that its profiler had and
the tracers that it has left. -/
inductive TrackingEvent where
  | tracked (profiler : Nat) (running : Bool)
  | released (profiler count : Nat) (stopped : Bool) (left : Nat)
  deriving DecidableEq

/-- One start at a time, since it has the lock. -/
structure Tracking where
  profiler : SentryTraceProfiler
  starting : Option Starting
  events : List TrackingEvent

namespace Tracking

inductive Call where
  | startWithTracer (traceId : Nat) (date : ℚ)
  | trackProfilerForTracer
  | profilerForFinishedTracer (internalTraceId : Nat)
  | discardProfilerForTracer (internalTraceId : Nat)
  | timeoutTimerExpired

def init : Tracking := ⟨.init, none, []⟩

def released (s : Tracking) (tracer : Nat) (profiler : SentryTraceProfiler) : Tracking :=
  { s with
    profiler := profiler
    events := s.events ++ (s.profiler.tracersToProfilers.lookup tracer).toList.map fun owner =>
      .released owner (s.profiler.count owner)
        (s.profiler.isRunning owner && !profiler.isRunning owner)
        (members profiler.tracersToProfilers owner) }

/-- A tracer is started once; the timeout needs the lock of the starts. -/
def step (s : Tracking) : Call → Option Tracking
  | .startWithTracer traceId date =>
    if s.starting.isSome || (s.profiler.tracersToProfilers.lookup traceId).isSome then none
    else some { s with
      profiler := (s.profiler.startOrFind date).2
      starting := some ⟨traceId, (s.profiler.startOrFind date).1.1,
        (s.profiler.startOrFind date).1.2⟩ }
  | .trackProfilerForTracer => s.starting.map fun starting => { s with
      profiler := s.profiler.trackProfilerForTracer starting.profiler starting.traceId
      starting := none
      events := s.events ++ [.tracked starting.profiler (s.profiler.isRunning starting.profiler)] }
  | .profilerForFinishedTracer tracer =>
    some (s.released tracer (s.profiler.profilerForFinishedTracer tracer).2)
  | .discardProfilerForTracer tracer =>
    some (s.released tracer (s.profiler.discardProfilerForTracer tracer))
  | .timeoutTimerExpired =>
    if s.starting.isSome then none else some { s with profiler := s.profiler.timeoutTimerExpired }

/-- A count is never zero when a tracer goes, a profiler stops with its last tracer, and a tracer
is tracked while its profiler runs. -/
def TrackingEvent.Fine : TrackingEvent → Prop
  | .tracked _ running => running = true
  | .released _ count stopped left => 0 < count ∧ (stopped = true → left = 0)

structure Correct (s : Tracking) : Prop where
  counts : ∀ profiler,
    s.profiler.count profiler = members s.profiler.tracersToProfilers profiler
  events : ∀ event ∈ s.events, TrackingEvent.Fine event

/-- The profiler is new, or a tracer of it has not ended since it was found; and there is room for
one more in the count. -/
def InTime (s : Tracking) : Call → Prop
  | .trackProfilerForTracer => ∀ starting ∈ s.starting,
    (starting.isNew = true ∨ 0 < members s.profiler.tracersToProfilers starting.profiler) ∧
      members s.profiler.tracersToProfilers starting.profiler + 1 < 2 ^ 32
  | _ => True

/-- A profiler runs while it has tracers to come or to end. -/
structure Inv (s : Tracking) : Prop where
  counted : s.profiler.Counted
  events : ∀ event ∈ s.events, TrackingEvent.Fine event
  fresh : ∀ profiler, s.profiler.profilers.length ≤ profiler →
    members s.profiler.tracersToProfilers profiler = 0
  running : ∀ profiler, s.profiler.isRunning profiler = true →
    0 < members s.profiler.tracersToProfilers profiler ∨
      ∃ starting ∈ s.starting, starting.profiler = profiler ∧ starting.isNew = true
  starting : ∀ starting ∈ s.starting,
    s.profiler.tracersToProfilers.lookup starting.traceId = none ∧
      starting.profiler < s.profiler.profilers.length ∧
      (0 < members s.profiler.tracersToProfilers starting.profiler →
        starting.isNew = false ∧ s.profiler.isRunning starting.profiler = true) ∧
      (starting.isNew = true → s.profiler.isRunning starting.profiler = true)

theorem Inv.init : init.Inv where
  counted := SentryTraceProfiler.Counted.init
  events := List.forall_mem_nil _
  fresh := fun _ _ => rfl
  running := by
    intro profiler hrunning
    cases hrunning
  starting := by
    rintro starting ⟨⟩

section Steps
variable {s s' : Tracking}

theorem Inv.startWithTracer (inv : s.Inv) {traceId : Nat} {date : ℚ}
    (hstep : s.step (.startWithTracer traceId date) = some s') : s'.Inv := by
  unfold step at hstep
  dsimp only at hstep
  split at hstep
  · cases hstep
  · rename_i hfree
    rw [Bool.or_eq_true, not_or, Bool.not_eq_true, Bool.not_eq_true, Option.isSome_eq_false_iff,
      Option.isSome_eq_false_iff, Option.isNone_iff_eq_none, Option.isNone_iff_eq_none] at hfree
    obtain ⟨hidle, hunknown⟩ := hfree
    have hrunning (profiler : Nat) (h : s.profiler.isRunning profiler = true) :
        0 < members s.profiler.tracersToProfilers profiler := by
      rcases inv.running profiler h with hmembers | ⟨starting, hstarting, -⟩
      · exact hmembers
      · rw [hidle] at hstarting
        cases hstarting
    cases hstep
    rcases s.profiler.startOrFind_cases date with
      ⟨profiler, hfound, -, hrun⟩ | ⟨-, hnew⟩
    · rw [hfound]
      refine ⟨inv.counted, inv.events, inv.fresh, fun other h => Or.inl (hrunning other h), ?_⟩
      rintro starting ⟨⟩
      refine ⟨hunknown, s.profiler.lt_length_of_isRunning hrun, fun _ => ⟨rfl, hrun⟩, ?_⟩
      rintro ⟨⟩
    · rw [hnew]
      refine ⟨⟨inv.counted.counts, inv.counted.bounded⟩, inv.events, ?_, ?_, ?_⟩
      · intro other hother
        rw [List.length_append, List.length_singleton] at hother
        exact inv.fresh other (by omega)
      · intro other hother
        dsimp only at hother
        rw [SentryTraceProfiler.isRunning_concat, Bool.or_eq_true, decide_eq_true_eq] at hother
        rcases hother with hsame | hother
        · exact Or.inr ⟨_, rfl, hsame.symm, rfl⟩
        · exact Or.inl (hrunning other hother)
      · rintro starting ⟨⟩
        have hnone := inv.fresh s.profiler.profilers.length (Nat.le_refl _)
        refine ⟨hunknown, ?_, fun h => absurd h (by dsimp only; omega), fun _ => ?_⟩
        · rw [List.length_append, List.length_singleton]
          exact Nat.lt_succ_self _
        · dsimp only
          rw [SentryTraceProfiler.isRunning_concat, decide_eq_true rfl, Bool.true_or]

/-- The end of a tracer whose profiler is known. -/
theorem Inv.released (inv : s.Inv) {tracer owner : Nat}
    (htracer : s.profiler.tracersToProfilers.lookup tracer = some owner) :
    (s.released tracer (s.profiler.cleanUpProfiler owner tracer)).Inv := by
  have herase := members_erase htracer
  have htracers := s.profiler.cleanUpProfiler_tracersToProfilers owner tracer
  have hrunning := SentryTraceProfiler.isRunning_cleanUpProfiler inv.counted htracer
  have hlength := s.profiler.length_profilers_cleanUpProfiler owner tracer
  refine ⟨inv.counted.cleanUpProfiler htracer, ?_, ?_, ?_, ?_⟩
  · refine List.forall_mem_append.mpr ⟨inv.events, ?_⟩
    rw [htracer]
    refine List.forall_mem_singleton.mpr
      ⟨SentryTraceProfiler.count_pos inv.counted htracer, fun hstopped => ?_⟩
    rw [hrunning] at hstopped
    have hlast : ¬ 1 < members s.profiler.tracersToProfilers owner := by
      intro hmore
      simp [hmore] at hstopped
    have hleft := herase owner
    rw [if_pos rfl] at hleft
    rw [htracers]
    omega
  · intro other hother
    have hnone := inv.fresh other (hlength ▸ hother)
    have hleft := herase other
    change members (s.profiler.cleanUpProfiler owner tracer).tracersToProfilers other = 0
    rw [htracers]
    omega
  · intro other hother
    change (s.profiler.cleanUpProfiler owner tracer).isRunning other = true at hother
    rw [hrunning, Bool.and_eq_true, decide_eq_true_eq] at hother
    obtain ⟨hmore, hother⟩ := hother
    have hleft := herase other
    rcases inv.running other hother with hmembers | hstarting
    · refine Or.inl ?_
      change 0 < members (s.profiler.cleanUpProfiler owner tracer).tracersToProfilers other
      rw [htracers]
      split at hleft
      · rename_i hsame
        rw [hsame] at hmore
        have := hmore rfl
        omega
      · omega
    · exact Or.inr hstarting
  · intro starting hstarting
    obtain ⟨hunknown, hlt, htracked, hnew⟩ := inv.starting starting hstarting
    have hleft := herase starting.profiler
    refine ⟨?_, ?_, ?_, ?_⟩
    · change (s.profiler.cleanUpProfiler owner tracer).tracersToProfilers.lookup _ = none
      rw [htracers, AList.lookup_erase_ne]
      · exact hunknown
      · rintro rfl
        rw [htracer] at hunknown
        cases hunknown
    · change _ < (s.profiler.cleanUpProfiler owner tracer).profilers.length
      rw [hlength]
      exact hlt
    · intro hmembers
      change 0 < members (s.profiler.cleanUpProfiler owner tracer).tracersToProfilers _ at hmembers
      rw [htracers] at hmembers
      obtain ⟨hold, hrun⟩ := htracked (by omega)
      refine ⟨hold, ?_⟩
      change (s.profiler.cleanUpProfiler owner tracer).isRunning _ = true
      rw [hrunning, hrun, Bool.and_true, decide_eq_true_eq]
      intro hsame
      rw [hsame] at hleft hmembers
      rw [if_pos rfl] at hleft
      omega
    · intro hisNew
      change (s.profiler.cleanUpProfiler owner tracer).isRunning _ = true
      rw [hrunning, hnew hisNew, Bool.and_true, decide_eq_true_eq]
      intro hsame
      have hmembers := members_pos htracer
      rw [← hsame] at hmembers
      rw [(htracked hmembers).1] at hisNew
      cases hisNew

theorem Inv.discardProfilerForTracer (inv : s.Inv) (tracer : Nat) :
    (s.released tracer (s.profiler.discardProfilerForTracer tracer)).Inv := by
  unfold SentryTraceProfiler.discardProfilerForTracer
  cases htracer : s.profiler.tracersToProfilers.lookup tracer with
  | none =>
    have hsame : s.released tracer s.profiler = s := by
      unfold Tracking.released
      rw [htracer]
      simp
    dsimp only
    rw [hsame]
    exact inv
  | some owner => exact inv.released htracer

theorem trackProfilerForTracer_cases (hstep : s.step .trackProfilerForTracer = some s') :
    ∃ starting ∈ s.starting, s' = { s with
      profiler := s.profiler.trackProfilerForTracer starting.profiler starting.traceId
      starting := none
      events := s.events ++
        [.tracked starting.profiler (s.profiler.isRunning starting.profiler)] } := by
  obtain ⟨starting, hstarting, rfl⟩ := Option.map_eq_some_iff.mp hstep
  exact ⟨starting, hstarting, rfl⟩

theorem Inv.trackProfilerForTracer (inv : s.Inv) (inTime : s.InTime .trackProfilerForTracer)
    (hstep : s.step .trackProfilerForTracer = some s') : s'.Inv := by
  obtain ⟨starting, hstarting, rfl⟩ := trackProfilerForTracer_cases hstep
  obtain ⟨hunknown, hlt, htracked, hnew⟩ := inv.starting starting hstarting
  obtain ⟨hkept, hroom⟩ := inTime starting hstarting
  have hmembers := s.profiler.members_trackProfilerForTracer hunknown starting.profiler
  have hrun : s.profiler.isRunning starting.profiler = true := by
    rcases hkept with hisNew | hkept
    · exact hnew hisNew
    · exact (htracked hkept).2
  refine ⟨inv.counted.trackProfilerForTracer hunknown hroom, ?_, ?_, ?_, ?_⟩
  · exact List.forall_mem_append.mpr ⟨inv.events, List.forall_mem_singleton.mpr hrun⟩
  · intro other hother
    have hnone := inv.fresh other hother
    change s.profiler.profilers.length ≤ other at hother
    rw [hmembers, if_neg (by omega), hnone]
  · intro other hother
    refine Or.inl ?_
    rw [hmembers]
    rcases inv.running other hother with hpos | ⟨found, hfound, rfl, -⟩
    · omega
    · rw [Option.mem_def.mp hstarting] at hfound
      cases hfound
      rw [if_pos rfl]
      omega
  · rintro starting ⟨⟩

/-- The profiler of a start that has lost its last tracer has stopped. -/
theorem Inv.not_correct_trackProfilerForTracer (inv : s.Inv)
    (late : ¬ s.InTime .trackProfilerForTracer)
    (hstep : s.step .trackProfilerForTracer = some s') : ¬ s'.Correct := by
  obtain ⟨starting, hstarting, rfl⟩ := trackProfilerForTracer_cases hstep
  obtain ⟨hunknown, -, -, -⟩ := inv.starting starting hstarting
  intro correct
  apply late
  intro other hother
  rw [Option.mem_def.mp hstarting] at hother
  cases hother
  constructor
  · have hrun := correct.events _ (List.mem_append_right _ (List.mem_singleton_self _))
    rcases inv.running starting.profiler hrun with hpos | ⟨other, hother, -, hisNew⟩
    · exact Or.inr hpos
    · rw [Option.mem_def.mp hstarting] at hother
      cases hother
      exact Or.inl hisNew
  · have hcount := correct.counts starting.profiler
    have hlt : s.profiler.count starting.profiler < 2 ^ 32 := by
      rw [inv.counted.counts]
      exact inv.counted.bounded _
    dsimp only at hcount
    rw [s.profiler.members_trackProfilerForTracer hunknown, if_pos rfl,
      s.profiler.count_trackProfilerForTracer, if_pos rfl] at hcount
    rw [← hcount]
    exact Nat.mod_lt _ (Nat.two_pow_pos 32)

theorem Inv.timeoutTimerExpired (inv : s.Inv)
    (hstep : s.step .timeoutTimerExpired = some s') : s'.Inv := by
  unfold step at hstep
  dsimp only at hstep
  split at hstep
  · cases hstep
  · rename_i hidle
    rw [Bool.not_eq_true, Option.isSome_eq_false_iff, Option.isNone_iff_eq_none] at hidle
    cases hstep
    have hrunning := s.profiler.isRunning_timeoutTimerExpired
    obtain ⟨profilers, hexpired, hlength⟩ := s.profiler.timeoutTimerExpired_cases
    rw [hexpired] at hrunning ⊢
    refine ⟨⟨inv.counted.counts, inv.counted.bounded⟩, inv.events, ?_, ?_, ?_⟩
    · intro other hother
      exact inv.fresh other (hlength ▸ hother)
    · intro other hother
      dsimp only at hother
      rw [hrunning, Bool.and_eq_true] at hother
      exact inv.running other hother.2
    · intro starting hstarting
      rw [hidle] at hstarting
      cases hstarting

theorem Inv.step (inv : s.Inv) {call : Call} (inTime : s.InTime call)
    (hstep : s.step call = some s') : s'.Inv := by
  cases call with
  | startWithTracer traceId date => exact inv.startWithTracer hstep
  | trackProfilerForTracer => exact inv.trackProfilerForTracer inTime hstep
  | profilerForFinishedTracer tracer =>
    cases hstep
    rw [SentryTraceProfiler.profilerForFinishedTracer_eq]
    exact inv.discardProfilerForTracer tracer
  | discardProfilerForTracer tracer =>
    cases hstep
    exact inv.discardProfilerForTracer tracer
  | timeoutTimerExpired => exact inv.timeoutTimerExpired hstep

theorem Inv.not_correct_step (inv : s.Inv) {call : Call} (late : ¬ s.InTime call)
    (hstep : s.step call = some s') : ¬ s'.Correct := by
  cases call with
  | trackProfilerForTracer => exact inv.not_correct_trackProfilerForTracer late hstep
  | startWithTracer traceId date => exact absurd trivial late
  | profilerForFinishedTracer tracer => exact absurd trivial late
  | discardProfilerForTracer tracer => exact absurd trivial late
  | timeoutTimerExpired => exact absurd trivial late

end Steps

/-- The tables agree and tracers have running profilers exactly in the runs in which a profiler
that a start has found does not lose its last tracer before the start tracks its own. -/
theorem always_tracked_iff_inTime (calls : List Call) :
    Always step Correct init calls ↔ Allowed step InTime init calls :=
  always_iff_allowed (fun _ inv => ⟨inv.counted.counts, inv.events⟩)
    (fun _ _ _ inv hok hstep => inv.step hok hstep)
    (fun _ _ _ inv hlate hstep => inv.not_correct_step hlate hstep) Inv.init calls

/-- The only tracer of a profiler ends after another start has found the profiler. -/
theorem tracked_after_stop : ¬ ∀ calls, Always step Correct init calls := by
  intro h
  have hrun : (exec step init
      [.startWithTracer 1 0, .trackProfilerForTracer, .startWithTracer 2 1,
        .profilerForFinishedTracer 1, .trackProfilerForTracer]).map
      (fun s => decide (TrackingEvent.tracked 0 false ∈ s.events)) = some true := by
    decide +kernel
  obtain ⟨s, hexec, hs⟩ := Option.map_eq_some_iff.mp hrun
  have hfine := ((h _).exec hexec).events _ (of_decide_eq_true hs)
  cases hfine

end Tracking

end SentryCocoa.TraceProfiling
