import SentryCocoa.Library.Machine
import SentryCocoa.Library.Ownership
import Mathlib.Algebra.Order.Ring.Rat

/-! The trace profiler. A profiler is shared by the tracers that start while it runs; the tables
tell which profiler a tracer has and how many tracers a profiler has. -/
namespace SentryCocoa.TraceProfiling
open SentryCocoa.Library.Ownership

inductive SentryProfilerTruncationReason where
  | normal | appMovedToBackground | timeout
  deriving DecidableEq

structure SentryProfiler where
  isRunning : Bool
  truncationReason : SentryProfilerTruncationReason
  startDate : ℚ
  deriving DecidableEq

def kSentryProfilerTimeoutInterval : ℚ := 30

/-- Arithmetic of unsigned ints. -/
def unsignedSucc (n : Nat) : Nat := (n + 1) % 2 ^ 32

def unsignedPred (n : Nat) : Nat := (2 ^ 32 - 1 + n) % 2 ^ 32

namespace SentryProfiler

def init (startDate : ℚ) : SentryProfiler := ⟨true, .normal, startDate⟩

def stopForReason (profiler : SentryProfiler) (reason : SentryProfilerTruncationReason) :
    SentryProfiler :=
  { profiler with truncationReason := reason, isRunning := false }

end SentryProfiler

/-- The profilers stand at their identifiers. A pending timer is known by when it was scheduled,
the main queue by how many blocks are to schedule one. -/
structure SentryTraceProfiler where
  profilers : List SentryProfiler
  traceProfiler : Option Nat
  timeoutTimer : Option ℚ
  mainQueue : Nat
  profilersToTracers : AList fun _ : Nat => Nat
  tracersToProfilers : AList fun _ : Nat => Nat

namespace SentryTraceProfiler

def init : SentryTraceProfiler := ⟨[], none, none, 0, ∅, ∅⟩

variable (s : SentryTraceProfiler)

def isRunning (profiler : Nat) : Bool := (s.profilers[profiler]?).any SentryProfiler.isRunning

def stopForReason (profiler : Nat) (reason : SentryProfilerTruncationReason) :
    SentryTraceProfiler :=
  { s with profilers := s.profilers.modify profiler fun profiler => profiler.stopForReason reason }

/-- The number in flight. -/
def count (profiler : Nat) : Nat := (s.profilersToTracers.lookup profiler).getD 0

def cleanUpProfiler (profiler tracerKey : Nat) : SentryTraceProfiler :=
  let count := unsignedPred (s.count profiler)
  let s := { s with
    tracersToProfilers := s.tracersToProfilers.erase tracerKey
    profilersToTracers := s.profilersToTracers.insert profiler count }
  if count = 0 then
    let s := { s with profilersToTracers := s.profilersToTracers.erase profiler }
    if s.isRunning profiler then s.stopForReason profiler .normal else s
  else s

def trackProfilerForTracer (profiler internalTraceId : Nat) : SentryTraceProfiler := { s with
  profilersToTracers := s.profilersToTracers.insert profiler (unsignedSucc (s.count profiler))
  tracersToProfilers := s.tracersToProfilers.insert internalTraceId profiler }

/-- The end of a tracer; a tracer without a profiler changes nothing. -/
def discardProfilerForTracer (internalTraceId : Nat) : SentryTraceProfiler :=
  match s.tracersToProfilers.lookup internalTraceId with
  | none => s
  | some profiler => s.cleanUpProfiler profiler internalTraceId

def profilerForFinishedTracer (internalTraceId : Nat) : Option Nat × SentryTraceProfiler :=
  match s.tracersToProfilers.lookup internalTraceId with
  | none => (none, s)
  | some profiler => (some profiler, s.cleanUpProfiler profiler internalTraceId)

/-- The profiler that runs, or a new one, which is told by the flag. -/
def startOrFind (date : ℚ) : (Nat × Bool) × SentryTraceProfiler :=
  match s.traceProfiler.filter s.isRunning with
  | some profiler => ((profiler, false), s)
  | none => ((s.profilers.length, true), { s with
      profilers := s.profilers ++ [.init date]
      traceProfiler := some s.profilers.length })

/-- The block that schedules the timer. -/
def scheduledTimeoutTimer (date : ℚ) : SentryTraceProfiler :=
  if s.timeoutTimer.isSome then s else { s with timeoutTimer := some date }

/-- On the main thread the block runs at once. -/
def scheduleTimeoutTimer (date : ℚ) (mainThread : Bool) : SentryTraceProfiler :=
  if mainThread then s.scheduledTimeoutTimer date else { s with mainQueue := s.mainQueue + 1 }

def startWithTracer (traceId : Nat) (date : ℚ) (mainThread : Bool) : SentryTraceProfiler :=
  let started := s.startOrFind date
  let s := started.2.trackProfilerForTracer started.1.1 traceId
  if started.1.2 then s.scheduleTimeoutTimer date mainThread else s

def timeoutTimerExpired : SentryTraceProfiler :=
  let s := { s with timeoutTimer := none }
  match s.traceProfiler.filter s.isRunning with
  | none => s
  | some profiler => s.stopForReason profiler .timeout

/-- The app resigns active; each profiler observes that for itself. -/
def backgroundAbort : SentryTraceProfiler :=
  { s with profilers := s.profilers.map fun profiler =>
      if profiler.isRunning then profiler.stopForReason .appMovedToBackground else profiler }

/-! What each function does. -/

@[simp] theorem isRunning_stopForReason (profiler other : Nat)
    (reason : SentryProfilerTruncationReason) :
    (s.stopForReason profiler reason).isRunning other =
      (decide (other ≠ profiler) && s.isRunning other) := by
  unfold isRunning stopForReason
  dsimp only
  rw [List.getElem?_modify]
  by_cases hsame : other = profiler
  · subst hsame
    cases s.profilers[other]? <;> simp [SentryProfiler.stopForReason]
  · cases s.profilers[other]? <;> simp [hsame, Ne.symm hsame]

/-- The tables agree on the number of tracers of each profiler. -/
structure Counted : Prop where
  counts : ∀ profiler, s.count profiler = members s.tracersToProfilers profiler
  bounded : ∀ profiler, members s.tracersToProfilers profiler < 2 ^ 32

theorem Counted.init : init.Counted where
  counts := fun _ => rfl
  bounded := fun _ => Nat.two_pow_pos 32

theorem count_insert (profilersToTracers : AList fun _ : Nat => Nat) (profiler other n : Nat) :
    ((profilersToTracers.insert profiler n).lookup other).getD 0 =
      if other = profiler then n else (profilersToTracers.lookup other).getD 0 := by
  split
  · rename_i hsame
    rw [hsame, AList.lookup_insert]
    rfl
  · rename_i hother
    rw [AList.lookup_insert_ne hother]

theorem count_erase (profilersToTracers : AList fun _ : Nat => Nat) (profiler other : Nat) :
    ((profilersToTracers.erase profiler).lookup other).getD 0 =
      if other = profiler then 0 else (profilersToTracers.lookup other).getD 0 := by
  split
  · rename_i hsame
    rw [hsame, AList.lookup_erase]
    rfl
  · rename_i hother
    rw [AList.lookup_erase_ne hother]

theorem members_trackProfilerForTracer {tracer : Nat}
    (hnew : s.tracersToProfilers.lookup tracer = none) (profiler other : Nat) :
    members (s.trackProfilerForTracer profiler tracer).tracersToProfilers other =
      members s.tracersToProfilers other + if profiler = other then 1 else 0 :=
  members_insert hnew profiler other

theorem count_trackProfilerForTracer (profiler tracer other : Nat) :
    (s.trackProfilerForTracer profiler tracer).count other =
      if other = profiler then unsignedSucc (s.count profiler) else s.count other :=
  count_insert _ _ _ _

theorem Counted.trackProfilerForTracer {s : SentryTraceProfiler} (counted : s.Counted)
    {profiler tracer : Nat} (hnew : s.tracersToProfilers.lookup tracer = none)
    (hroom : members s.tracersToProfilers profiler + 1 < 2 ^ 32) :
    (s.trackProfilerForTracer profiler tracer).Counted := by
  have hcounts := counted.counts
  have hbounded := counted.bounded
  constructor
  · intro other
    rw [members_trackProfilerForTracer s hnew]
    rw [count_trackProfilerForTracer, hcounts profiler, unsignedSucc, Nat.mod_eq_of_lt hroom]
    split
    · rename_i hsame
      rw [hsame, if_pos rfl]
    · rename_i hother
      rw [if_neg (Ne.symm hother)]
      exact hcounts other
  · intro other
    rw [members_trackProfilerForTracer s hnew]
    split
    · rename_i hsame
      rw [← hsame]
      exact hroom
    · exact hbounded other

theorem cleanUpProfiler_tracersToProfilers (profiler tracer : Nat) :
    (s.cleanUpProfiler profiler tracer).tracersToProfilers =
      s.tracersToProfilers.erase tracer := by
  unfold cleanUpProfiler
  dsimp only
  split
  · split <;> rfl
  · rfl

theorem length_profilers_cleanUpProfiler (profiler tracer : Nat) :
    (s.cleanUpProfiler profiler tracer).profilers.length = s.profilers.length := by
  unfold cleanUpProfiler
  dsimp only
  split
  · split
    · exact List.length_modify _ _ _
    · rfl
  · rfl

section CleanUp
variable {s} {profiler tracer : Nat} (counted : s.Counted)
  (htracer : s.tracersToProfilers.lookup tracer = some profiler)
include counted htracer

theorem count_pos : 0 < s.count profiler := by
  rw [counted.counts]
  exact members_pos htracer

theorem count_pred :
    unsignedPred (s.count profiler) = members s.tracersToProfilers profiler - 1 := by
  have hpos := members_pos htracer
  have hlt := counted.bounded profiler
  rw [counted.counts]
  unfold unsignedPred
  omega

theorem count_cleanUpProfiler (other : Nat) :
    (s.cleanUpProfiler profiler tracer).count other =
      if other = profiler then members s.tracersToProfilers profiler - 1 else s.count other := by
  unfold cleanUpProfiler
  dsimp only
  rw [count_pred counted htracer]
  split
  · rename_i hlast
    split
    · unfold count stopForReason
      dsimp only
      rw [count_erase, count_insert, hlast]
      split <;> rfl
    · unfold count
      dsimp only
      rw [count_erase, count_insert, hlast]
      split <;> rfl
  · unfold count
    dsimp only
    rw [count_insert]

theorem Counted.cleanUpProfiler : (s.cleanUpProfiler profiler tracer).Counted := by
  have herase := members_erase htracer
  constructor
  · intro other
    rw [count_cleanUpProfiler counted htracer, cleanUpProfiler_tracersToProfilers]
    have hother := herase other
    split
    · rename_i hsame
      rw [hsame, if_pos rfl] at hother
      rw [hsame]
      omega
    · rename_i hne
      rw [if_neg (Ne.symm hne)] at hother
      rw [counted.counts]
      omega
  · intro other
    rw [cleanUpProfiler_tracersToProfilers]
    have hother := herase other
    have hlt := counted.bounded other
    omega

/-- The profiler stops when its last tracer goes. -/
theorem isRunning_cleanUpProfiler (other : Nat) :
    (s.cleanUpProfiler profiler tracer).isRunning other =
      (decide (other = profiler → 1 < members s.tracersToProfilers profiler) &&
        s.isRunning other) := by
  have hpos := members_pos htracer
  unfold cleanUpProfiler
  dsimp only
  rw [count_pred counted htracer]
  split
  · rename_i hlast
    have hone : members s.tracersToProfilers profiler = 1 := by omega
    have hcond : decide (other = profiler → 1 < members s.tracersToProfilers profiler) =
        decide (other ≠ profiler) := by
      rw [hone]
      simp
    rw [hcond]
    split
    · rw [isRunning_stopForReason]
      rfl
    · rename_i hstopped
      by_cases hsame : other = profiler
      · subst hsame
        have hstopped : s.isRunning other = false := Bool.eq_false_iff.mpr hstopped
        change s.isRunning other = _
        rw [hstopped, Bool.and_false]
      · simp only [ne_eq, hsame, not_false_eq_true, decide_true, Bool.true_and]
        rfl
  · rename_i hmore
    have hcond : decide (other = profiler → 1 < members s.tracersToProfilers profiler) = true :=
      decide_eq_true fun _ => by omega
    rw [hcond, Bool.true_and]
    rfl

end CleanUp

/-- A tracer ends in the same way when it is discarded and when it has finished. -/
theorem profilerForFinishedTracer_eq (internalTraceId : Nat) :
    (s.profilerForFinishedTracer internalTraceId).2 =
      s.discardProfilerForTracer internalTraceId := by
  unfold profilerForFinishedTracer discardProfilerForTracer
  cases s.tracersToProfilers.lookup internalTraceId <;> rfl

/-- Either a profiler runs and nothing changes, or a new one is added that runs. -/
theorem startOrFind_cases (date : ℚ) :
    (∃ profiler, s.startOrFind date = ((profiler, false), s) ∧
        s.traceProfiler = some profiler ∧ s.isRunning profiler = true) ∨
      ((∀ profiler ∈ s.traceProfiler, s.isRunning profiler = false) ∧
        s.startOrFind date = ((s.profilers.length, true), { s with
          profilers := s.profilers ++ [.init date]
          traceProfiler := some s.profilers.length })) := by
  unfold startOrFind
  cases hfound : s.traceProfiler.filter s.isRunning with
  | some profiler =>
    obtain ⟨hcurrent, hrunning⟩ := Option.filter_eq_some_iff.mp hfound
    exact Or.inl ⟨profiler, rfl, hcurrent, hrunning⟩
  | none =>
    refine Or.inr ⟨fun profiler hprofiler => ?_, rfl⟩
    exact Bool.eq_false_iff.mpr (Option.filter_eq_none_iff.mp hfound profiler hprofiler)

theorem isRunning_concat (date : ℚ) (current : Option Nat) (profiler : Nat) :
    ({ s with profilers := s.profilers ++ [.init date], traceProfiler := current } :
      SentryTraceProfiler).isRunning profiler =
        (decide (profiler = s.profilers.length) || s.isRunning profiler) := by
  unfold isRunning
  dsimp only
  rcases Nat.lt_trichotomy profiler s.profilers.length with hlt | heq | hgt
  · rw [List.getElem?_append_left hlt, decide_eq_false (Nat.ne_of_lt hlt), Bool.false_or]
  · rw [heq, List.getElem?_concat_length, decide_eq_true rfl, Bool.true_or]
    rfl
  · rw [List.getElem?_eq_none (by rw [List.length_append, List.length_singleton]; omega),
      List.getElem?_eq_none (by omega), decide_eq_false (Nat.ne_of_gt hgt)]
    rfl

theorem lt_length_of_isRunning {profiler : Nat} (h : s.isRunning profiler = true) :
    profiler < s.profilers.length := by
  unfold isRunning at h
  by_contra hge
  rw [List.getElem?_eq_none (by omega)] at h
  cases h

/-- The timeout leaves the tables and makes no profiler. -/
theorem timeoutTimerExpired_cases : ∃ profilers,
    s.timeoutTimerExpired = { s with timeoutTimer := none, profilers := profilers } ∧
      profilers.length = s.profilers.length := by
  unfold timeoutTimerExpired
  dsimp only
  split
  · exact ⟨_, rfl, rfl⟩
  · exact ⟨_, rfl, List.length_modify _ _ _⟩

/-- The timeout stops the current profiler. -/
theorem isRunning_timeoutTimerExpired (profiler : Nat) :
    s.timeoutTimerExpired.isRunning profiler =
      (decide (s.traceProfiler ≠ some profiler) && s.isRunning profiler) := by
  unfold timeoutTimerExpired
  dsimp only
  cases hfound : s.traceProfiler.filter s.isRunning with
  | none =>
    have hstopped := Option.filter_eq_none_iff.mp hfound
    split
    · change s.isRunning profiler = _
      by_cases hcurrent : s.traceProfiler = some profiler
      · rw [Bool.eq_false_iff.mpr (hstopped profiler hcurrent), Bool.and_false]
      · rw [decide_eq_true hcurrent, Bool.true_and]
    · rename_i current hsome
      rw [show (s.traceProfiler.filter s.isRunning) = some current from hsome] at hfound
      cases hfound
  | some current =>
    obtain ⟨hcurrent, hrunning⟩ := Option.filter_eq_some_iff.mp hfound
    split
    · rename_i hnone
      rw [show (s.traceProfiler.filter s.isRunning) = none from hnone] at hfound
      cases hfound
    · rename_i found hsome
      rw [show (s.traceProfiler.filter s.isRunning) = some found from hsome] at hfound
      cases hfound
      rw [isRunning_stopForReason, hcurrent]
      simp only [ne_eq, Option.some.injEq, eq_comm (a := profiler)]
      rfl

end SentryTraceProfiler

end SentryCocoa.TraceProfiling
