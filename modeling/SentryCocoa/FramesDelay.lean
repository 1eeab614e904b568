import Mathlib.Data.List.Induction
import SentryCocoa.DelayedFrames

/-! How long frames were delayed in an interval of time: the delayed parts of the recorded frames
and of the frame that is still displayed, as far as they lie in the interval. -/
namespace SentryCocoa.FramesTracker
open SentryCocoa.Foundation

def nanosecondsToTimeInterval (nanoseconds : Nat) : ℚ := nanoseconds / 10 ^ 9

structure SentryFramesDelayResult where
  delayDuration : ℚ
  framesContributingToDelayCount : Nat
  deriving DecidableEq

/-- An interval with a negative duration raises, so there is none. -/
structure NSDateInterval where
  startDate : ℚ
  duration : ℚ
  duration_nonneg : 0 ≤ duration

namespace NSDateInterval
variable (interval other : NSDateInterval)

def endDate : ℚ := interval.startDate + interval.duration

/-- Intervals that touch intersect. -/
def intersectsDateInterval : Bool :=
  interval.startDate ≤ other.endDate ∧ other.startDate ≤ interval.endDate

def intersectionWithDateInterval : Option NSDateInterval :=
  if h : interval.startDate ≤ other.endDate ∧ other.startDate ≤ interval.endDate then some {
    startDate := max interval.startDate other.startDate
    duration := min interval.endDate other.endDate - max interval.startDate other.startDate
    duration_nonneg := by
      have hstart : interval.startDate ≤ interval.endDate :=
        le_add_of_nonneg_right interval.duration_nonneg
      have hother : other.startDate ≤ other.endDate :=
        le_add_of_nonneg_right other.duration_nonneg
      exact sub_nonneg.mpr (max_le (le_min hstart h.1) (le_min h.2 hother)) }
  else none

end NSDateInterval

def calculateDelay (delayedFrame : SentryDelayedFrame) (queryDateInterval : NSDateInterval) : ℚ :=
  let delayStartTime := nanosecondsToTimeInterval delayedFrame.startSystemTimestamp +
    delayedFrame.expectedDuration
  let duration := delayedFrame.actualDuration - delayedFrame.expectedDuration
  if h : duration < 0 then 0
  else match queryDateInterval.intersectionWithDateInterval
      ⟨delayStartTime, duration, not_lt.mp h⟩ with
    | some intersection => intersection.duration
    | none => 0

/-- The loop over the frames, the youngest first. -/
def delayOfFrames (startSystemTimestamp : Nat) (queryDateInterval : NSDateInterval) :
    List SentryDelayedFrame → ℚ → Nat → SentryFramesDelayResult
  | [], delay, framesCount => ⟨delay, framesCount⟩
  | frame :: frames, delay, framesCount =>
    if frame.frameEndSystemTimeStamp < startSystemTimestamp then ⟨delay, framesCount⟩
    else delayOfFrames startSystemTimestamp queryDateInterval frames
      (delay + calculateDelay frame queryDateInterval) (framesCount + 1)

namespace SentryDelayedFramesTracker
variable (tracker : SentryDelayedFramesTracker)

def oldestDelayedFrameStartTimestamp : Nat :=
  match tracker.delayedFrames.head? with
  | none => 2 ^ 64 - 1
  | some oldestDelayedFrame => oldestDelayedFrame.startSystemTimestamp

/-- The frame that is still displayed, which may be delayed. -/
def currentFrameDelay (endSystemTimestamp : Nat) (slowFrameThreshold : ℚ) : SentryDelayedFrame where
  startSystemTimestamp := tracker.previousFrameSystemTimestamp
  expectedDuration := slowFrameThreshold
  actualDuration := nanosecondsToTimeInterval
    (wrap (endSystemTimestamp - tracker.previousFrameSystemTimestamp : Int))

def queryDateInterval (startSystemTimestamp endSystemTimestamp : Nat)
    (h : startSystemTimestamp < endSystemTimestamp) : NSDateInterval where
  startDate := nanosecondsToTimeInterval startSystemTimestamp
  duration := nanosecondsToTimeInterval endSystemTimestamp -
    nanosecondsToTimeInterval startSystemTimestamp
  duration_nonneg := by
    rw [sub_nonneg]
    unfold nanosecondsToTimeInterval
    gcongr

def getFramesDelay (systemTime startSystemTimestamp endSystemTimestamp : Nat) (isRunning : Bool)
    (slowFrameThreshold : ℚ) : SentryFramesDelayResult :=
  let cantCalculateFrameDelayReturnValue : SentryFramesDelayResult := ⟨-1, 0⟩
  if isRunning = false then cantCalculateFrameDelayReturnValue
  else if h : startSystemTimestamp ≥ endSystemTimestamp then cantCalculateFrameDelayReturnValue
  else if endSystemTimestamp > systemTime then cantCalculateFrameDelayReturnValue
  else if tracker.previousFrameSystemTimestamp = 0 then cantCalculateFrameDelayReturnValue
  else if tracker.oldestDelayedFrameStartTimestamp > startSystemTimestamp then
    cantCalculateFrameDelayReturnValue
  else
    let frames := tracker.delayedFrames ++
      [tracker.currentFrameDelay endSystemTimestamp slowFrameThreshold]
    delayOfFrames startSystemTimestamp
      (queryDateInterval startSystemTimestamp endSystemTimestamp (not_le.mp h)) frames.reverse 0 0

/-- The queries that are answered. -/
structure Accepts (systemTime startSystemTimestamp endSystemTimestamp : Nat) (isRunning : Bool) :
    Prop where
  running : isRunning = true
  start_lt_end : startSystemTimestamp < endSystemTimestamp
  end_le : endSystemTimestamp ≤ systemTime
  hasFrame : tracker.previousFrameSystemTimestamp ≠ 0
  oldest_le : tracker.oldestDelayedFrameStartTimestamp ≤ startSystemTimestamp

end SentryDelayedFramesTracker

/-! What a delay is. -/

/-- The part of a frame behind its expected duration, in seconds. -/
structure DelayedPart where
  start : ℚ
  finish : ℚ

namespace DelayedPart
variable (part : DelayedPart) (start finish : ℚ)

/-- The length of what lies between two times. -/
def overlap : ℚ := max 0 (min part.finish finish - max part.start start)

def Meets : Prop := part.start ≤ part.finish ∧ part.start ≤ finish ∧ start ≤ part.finish

instance : Decidable (part.Meets start finish) :=
  inferInstanceAs (Decidable (_ ∧ _ ∧ _))

end DelayedPart

def SentryDelayedFrame.delayedPart (frame : SentryDelayedFrame) : DelayedPart where
  start := nanosecondsToTimeInterval frame.startSystemTimestamp + frame.expectedDuration
  finish := nanosecondsToTimeInterval frame.startSystemTimestamp + frame.actualDuration

/-- The delayed parts of the recorded frames, and of the frame that is still displayed when the
query ends. -/
def SentryDelayedFramesTracker.delayedParts (tracker : SentryDelayedFramesTracker)
    (endSystemTimestamp : Nat) (slowFrameThreshold : ℚ) : List DelayedPart :=
  tracker.delayedFrames.map SentryDelayedFrame.delayedPart ++
    [⟨nanosecondsToTimeInterval tracker.previousFrameSystemTimestamp + slowFrameThreshold,
      nanosecondsToTimeInterval endSystemTimestamp⟩]

/-- The frames were recorded in the order of their ends, which are 64 bit timestamps. -/
structure RecordedInOrder (frames : List SentryDelayedFrame) : Prop where
  nonneg : ∀ frame ∈ frames, 0 ≤ frame.actualDuration
  fits : ∀ frame ∈ frames,
    frame.startSystemTimestamp + timeIntervalToNanoseconds frame.actualDuration < 2 ^ 64
  sorted : frames.Pairwise fun frame frame' =>
    frame.delayedPart.finish ≤ frame'.delayedPart.finish

/-! One frame. -/

theorem nanosecondsToTimeInterval_le_iff {first second : Nat} :
    nanosecondsToTimeInterval first ≤ nanosecondsToTimeInterval second ↔ first ≤ second := by
  unfold nanosecondsToTimeInterval
  rw [div_le_div_iff_of_pos_right (by norm_num), Nat.cast_le]

theorem timeIntervalToNanoseconds_nanosecondsToTimeInterval (nanoseconds : Nat) :
    timeIntervalToNanoseconds (nanosecondsToTimeInterval nanoseconds) = nanoseconds := by
  unfold timeIntervalToNanoseconds nanosecondsToTimeInterval
  rw [div_mul_cancel₀ _ (by norm_num), Int.floor_natCast, Int.toNat_natCast]

theorem calculateDelay_eq (frame : SentryDelayedFrame) (query : NSDateInterval) :
    calculateDelay frame query =
      frame.delayedPart.overlap query.startDate query.endDate := by
  have hquery : query.startDate ≤ query.endDate := le_add_of_nonneg_right query.duration_nonneg
  unfold calculateDelay DelayedPart.overlap SentryDelayedFrame.delayedPart
  dsimp only
  generalize nanosecondsToTimeInterval frame.startSystemTimestamp = start
  split
  · next hnegative =>
    rw [max_eq_left]
    have hmin : min (start + frame.actualDuration) query.endDate ≤
        start + frame.actualDuration := min_le_left _ _
    have hmax : start + frame.expectedDuration ≤
        max (start + frame.expectedDuration) query.startDate := le_max_left _ _
    linarith
  · next hnonneg =>
    have hend : (⟨start + frame.expectedDuration,
        frame.actualDuration - frame.expectedDuration, not_lt.mp hnonneg⟩ :
        NSDateInterval).endDate = start + frame.actualDuration := by
      unfold NSDateInterval.endDate
      ring
    unfold NSDateInterval.intersectionWithDateInterval
    by_cases hmeets : query.startDate ≤ start + frame.actualDuration ∧
        start + frame.expectedDuration ≤ query.endDate
    · rw [dif_pos (by rw [hend]; exact hmeets)]
      dsimp only
      rw [hend, max_comm query.startDate, min_comm query.endDate]
      have hframe : start + frame.expectedDuration ≤ start + frame.actualDuration := by linarith
      have hle := max_le (le_min hframe hmeets.2) (le_min hmeets.1 hquery)
      exact (max_eq_right (sub_nonneg.mpr hle)).symm
    · rw [dif_neg (by rw [hend]; exact hmeets)]
      dsimp only
      rw [max_eq_left]
      rw [not_and_or, not_le, not_le] at hmeets
      rcases hmeets with hbefore | hbehind
      · have hmin := min_le_left (start + frame.actualDuration) query.endDate
        have hmax := le_max_right (start + frame.expectedDuration) query.startDate
        linarith
      · have hmin := min_le_right (start + frame.actualDuration) query.endDate
        have hmax := le_max_left (start + frame.expectedDuration) query.startDate
        linarith

/-- A part that ends before the start has nothing in common with what follows. -/
theorem DelayedPart.overlap_eq_zero {part : DelayedPart} {start finish : ℚ}
    (h : part.finish < start) : part.overlap start finish = 0 := by
  unfold overlap
  rw [max_eq_left]
  have hmin := min_le_left part.finish finish
  have hmax := le_max_right part.start start
  linarith

/-- The loop leaves at a frame that ended before the query. -/
theorem frameEndSystemTimeStamp_lt_iff {frame : SentryDelayedFrame} {startSystemTimestamp : Nat}
    (hnonneg : 0 ≤ frame.actualDuration)
    (hfits : frame.startSystemTimestamp + timeIntervalToNanoseconds frame.actualDuration < 2 ^ 64) :
    frame.frameEndSystemTimeStamp < startSystemTimestamp ↔
      frame.delayedPart.finish < nanosecondsToTimeInterval startSystemTimestamp := by
  have hend : frame.frameEndSystemTimeStamp = frame.startSystemTimestamp +
      timeIntervalToNanoseconds frame.actualDuration := wrap_of_lt hfits
  have hfloor : 0 ≤ ⌊frame.actualDuration * 10 ^ 9⌋ :=
    Int.floor_nonneg.mpr (mul_nonneg hnonneg (by norm_num))
  have hint : frame.startSystemTimestamp + timeIntervalToNanoseconds frame.actualDuration <
        startSystemTimestamp ↔
      ⌊frame.actualDuration * 10 ^ 9⌋ <
        (startSystemTimestamp : Int) - frame.startSystemTimestamp := by
    unfold timeIntervalToNanoseconds
    omega
  rw [hend, hint, Int.floor_lt]
  unfold SentryDelayedFrame.delayedPart nanosecondsToTimeInterval
  push_cast
  rw [lt_div_iff₀ (by norm_num), add_mul, div_mul_cancel₀ _ (by norm_num)]
  exact lt_sub_iff_add_lt'

/-! The loop. -/

theorem delayOfFrames_eq (startSystemTimestamp : Nat) (query : NSDateInterval)
    (frames : List SentryDelayedFrame) (delay : ℚ) (framesCount : Nat) :
    delayOfFrames startSystemTimestamp query frames delay framesCount =
      ⟨delay + ((frames.takeWhile fun frame =>
            startSystemTimestamp ≤ frame.frameEndSystemTimeStamp).map
          (calculateDelay · query)).sum,
        framesCount + (frames.takeWhile fun frame =>
          startSystemTimestamp ≤ frame.frameEndSystemTimeStamp).length⟩ := by
  induction frames generalizing delay framesCount with
  | nil => simp [delayOfFrames]
  | cons frame frames ih =>
    rw [delayOfFrames]
    by_cases hbefore : frame.frameEndSystemTimeStamp < startSystemTimestamp
    · have hbreak : ¬ startSystemTimestamp ≤ frame.frameEndSystemTimeStamp := not_le.mpr hbefore
      rw [if_pos hbefore, List.takeWhile_cons_of_neg (by simpa using hbreak)]
      simp
    · have htake : startSystemTimestamp ≤ frame.frameEndSystemTimeStamp := not_lt.mp hbefore
      rw [if_neg hbefore, ih, List.takeWhile_cons_of_pos (by simpa using htake)]
      simp only [List.map_cons, List.sum_cons, List.length_cons]
      congr 1
      · ring
      · omega

/-- From the back, the loop meets exactly what is not before the query. -/
theorem takeWhile_reverse_eq_filter {α : Type} {p : α → Bool} {l : List α}
    (h : l.Pairwise fun a b => p a = true → p b = true) :
    l.reverse.takeWhile p = (l.filter p).reverse := by
  induction l using List.reverseRecOn with
  | nil => rfl
  | append_singleton l a ih =>
    obtain ⟨hl, -, hlast⟩ := List.pairwise_append.mp h
    rw [List.reverse_append, List.reverse_singleton, List.singleton_append, List.filter_append]
    by_cases ha : p a = true
    · rw [List.takeWhile_cons_of_pos ha, ih hl, List.filter_cons_of_pos ha, List.filter_nil,
        List.reverse_append]
      rfl
    · have hnone : l.filter p = [] := by
        rw [List.filter_eq_nil_iff]
        exact fun b hb hpb => ha (hlast b hb a (List.mem_singleton.mpr rfl) hpb)
      rw [List.takeWhile_cons_of_neg ha, hnone, List.filter_cons_of_neg ha]
      rfl

/-- The parts that end before the start add nothing. -/
theorem sum_overlap_filter (parts : List DelayedPart) (start finish : ℚ) :
    ((parts.filter fun part => start ≤ part.finish).map (·.overlap start finish)).sum =
      (parts.map (·.overlap start finish)).sum := by
  induction parts with
  | nil => rfl
  | cons part parts ih =>
    rw [List.map_cons, List.sum_cons]
    by_cases h : start ≤ part.finish
    · rw [List.filter_cons_of_pos (by simpa using h), List.map_cons, List.sum_cons, ih]
    · rw [List.filter_cons_of_neg (by simpa using h), ih,
        DelayedPart.overlap_eq_zero (not_le.mp h), zero_add]

namespace SentryDelayedFramesTracker
variable {tracker : SentryDelayedFramesTracker}

/-! The frame that is still displayed. A frame shown after the end of the query has a duration
that wraps, and its delay begins behind the query. -/

variable (tracker) in
theorem currentFrameDelay_frameEnd {endSystemTimestamp : Nat} (slowFrameThreshold : ℚ)
    (h : endSystemTimestamp < 2 ^ 64) :
    (tracker.currentFrameDelay endSystemTimestamp slowFrameThreshold).frameEndSystemTimeStamp =
      endSystemTimestamp := by
  unfold SentryDelayedFrame.frameEndSystemTimeStamp currentFrameDelay
  dsimp only
  rw [timeIntervalToNanoseconds_nanosecondsToTimeInterval]
  unfold wrap
  omega

theorem currentFrameDelay_overlap {endSystemTimestamp : Nat} (h : endSystemTimestamp < 2 ^ 64)
    (slowFrameThreshold start : ℚ) :
    (tracker.currentFrameDelay endSystemTimestamp slowFrameThreshold).delayedPart.overlap start
        (nanosecondsToTimeInterval endSystemTimestamp) =
      DelayedPart.overlap
        ⟨nanosecondsToTimeInterval tracker.previousFrameSystemTimestamp + slowFrameThreshold,
          nanosecondsToTimeInterval endSystemTimestamp⟩ start
        (nanosecondsToTimeInterval endSystemTimestamp) := by
  have hsum : nanosecondsToTimeInterval tracker.previousFrameSystemTimestamp +
        nanosecondsToTimeInterval
          (wrap (endSystemTimestamp - tracker.previousFrameSystemTimestamp : Int)) =
      nanosecondsToTimeInterval (tracker.previousFrameSystemTimestamp +
        wrap (endSystemTimestamp - tracker.previousFrameSystemTimestamp : Int)) := by
    unfold nanosecondsToTimeInterval
    push_cast
    ring
  have hle : nanosecondsToTimeInterval endSystemTimestamp ≤
      nanosecondsToTimeInterval (tracker.previousFrameSystemTimestamp +
        wrap (endSystemTimestamp - tracker.previousFrameSystemTimestamp : Int)) := by
    rw [nanosecondsToTimeInterval_le_iff]
    unfold wrap
    omega
  unfold DelayedPart.overlap SentryDelayedFrame.delayedPart currentFrameDelay
  dsimp only
  rw [hsum, min_eq_right hle, min_self]

/-! The query. -/

theorem queryDateInterval_endDate (startSystemTimestamp endSystemTimestamp : Nat)
    (h : startSystemTimestamp < endSystemTimestamp) :
    (queryDateInterval startSystemTimestamp endSystemTimestamp h).endDate =
      nanosecondsToTimeInterval endSystemTimestamp := by
  unfold queryDateInterval NSDateInterval.endDate
  ring

theorem getFramesDelay_of_accepts {systemTime startSystemTimestamp endSystemTimestamp : Nat}
    {isRunning : Bool}
    (h : tracker.Accepts systemTime startSystemTimestamp endSystemTimestamp isRunning)
    (slowFrameThreshold : ℚ) :
    tracker.getFramesDelay systemTime startSystemTimestamp endSystemTimestamp isRunning
        slowFrameThreshold =
      delayOfFrames startSystemTimestamp
        (queryDateInterval startSystemTimestamp endSystemTimestamp h.start_lt_end)
        (tracker.delayedFrames ++
          [tracker.currentFrameDelay endSystemTimestamp slowFrameThreshold]).reverse 0 0 := by
  unfold getFramesDelay
  dsimp only
  rw [if_neg (by rw [h.running]; decide), dif_neg (not_le.mpr h.start_lt_end),
    if_neg (not_lt.mpr h.end_le), if_neg h.hasFrame, if_neg (not_lt.mpr h.oldest_le)]

/-- The frames that the loop comes to. -/
theorem takeWhile_frames {startSystemTimestamp endSystemTimestamp : Nat} {slowFrameThreshold : ℚ}
    (hframes : RecordedInOrder tracker.delayedFrames)
    (hle : startSystemTimestamp ≤ endSystemTimestamp) (hlt : endSystemTimestamp < 2 ^ 64) :
    ((tracker.delayedFrames ++
        [tracker.currentFrameDelay endSystemTimestamp slowFrameThreshold]).reverse.takeWhile
        fun frame => startSystemTimestamp ≤ frame.frameEndSystemTimeStamp) =
      tracker.currentFrameDelay endSystemTimestamp slowFrameThreshold ::
        (tracker.delayedFrames.filter fun frame =>
          nanosecondsToTimeInterval startSystemTimestamp ≤ frame.delayedPart.finish).reverse := by
  have hiff : ∀ frame ∈ tracker.delayedFrames,
      (startSystemTimestamp ≤ frame.frameEndSystemTimeStamp ↔
        nanosecondsToTimeInterval startSystemTimestamp ≤ frame.delayedPart.finish) := by
    intro frame hframe
    rw [← not_lt, frameEndSystemTimeStamp_lt_iff (hframes.nonneg frame hframe)
      (hframes.fits frame hframe), not_lt]
  have hend := currentFrameDelay_frameEnd tracker slowFrameThreshold hlt
  rw [List.reverse_append, List.reverse_singleton, List.singleton_append,
    List.takeWhile_cons_of_pos (by simpa [hend] using hle), takeWhile_reverse_eq_filter]
  · congr 2
    apply List.filter_congr
    intro frame hframe
    rw [decide_eq_decide]
    exact hiff frame hframe
  · apply hframes.sorted.imp_of_mem
    intro frame frame' hframe hframe' hsorted hin
    rw [decide_eq_true_eq, hiff frame hframe] at hin
    rw [decide_eq_true_eq, hiff frame' hframe']
    exact hin.trans hsorted

/-- The delay of an answered query is what the delayed parts have in common with it, and the
frames that are counted are those that did not end before it, whether or not their delayed part
meets it; none that meets it is left out. -/
theorem getFramesDelay_eq {systemTime startSystemTimestamp endSystemTimestamp : Nat}
    {isRunning : Bool} {slowFrameThreshold : ℚ}
    (h : tracker.Accepts systemTime startSystemTimestamp endSystemTimestamp isRunning)
    (hframes : RecordedInOrder tracker.delayedFrames) (hlt : endSystemTimestamp < 2 ^ 64) :
    tracker.getFramesDelay systemTime startSystemTimestamp endSystemTimestamp isRunning
        slowFrameThreshold =
      { delayDuration := ((tracker.delayedParts endSystemTimestamp slowFrameThreshold).map
          (·.overlap (nanosecondsToTimeInterval startSystemTimestamp)
            (nanosecondsToTimeInterval endSystemTimestamp))).sum
        framesContributingToDelayCount :=
          ((tracker.delayedParts endSystemTimestamp slowFrameThreshold).filter fun part =>
            nanosecondsToTimeInterval startSystemTimestamp ≤ part.finish).length } ∧
      ∀ part ∈ tracker.delayedParts endSystemTimestamp slowFrameThreshold,
        part.Meets (nanosecondsToTimeInterval startSystemTimestamp)
          (nanosecondsToTimeInterval endSystemTimestamp) →
        part ∈ (tracker.delayedParts endSystemTimestamp slowFrameThreshold).filter fun part =>
          nanosecondsToTimeInterval startSystemTimestamp ≤ part.finish := by
  refine ⟨?_, fun part hpart hmeets =>
    List.mem_filter.mpr ⟨hpart, decide_eq_true hmeets.2.2⟩⟩
  have hle := h.start_lt_end.le
  have hpending : nanosecondsToTimeInterval startSystemTimestamp ≤
      nanosecondsToTimeInterval endSystemTimestamp := nanosecondsToTimeInterval_le_iff.mpr hle
  rw [getFramesDelay_of_accepts h, delayOfFrames_eq, takeWhile_frames hframes hle hlt]
  have hrecorded : (tracker.delayedFrames.filter fun frame =>
        nanosecondsToTimeInterval startSystemTimestamp ≤ frame.delayedPart.finish).map
          SentryDelayedFrame.delayedPart =
      (tracker.delayedFrames.map SentryDelayedFrame.delayedPart).filter fun part =>
        nanosecondsToTimeInterval startSystemTimestamp ≤ part.finish := by
    rw [List.filter_map]
    rfl
  have hdelay : ∀ frame, calculateDelay frame (queryDateInterval startSystemTimestamp
        endSystemTimestamp h.start_lt_end) =
      frame.delayedPart.overlap (nanosecondsToTimeInterval startSystemTimestamp)
        (nanosecondsToTimeInterval endSystemTimestamp) := by
    intro frame
    rw [calculateDelay_eq, queryDateInterval_endDate]
    rfl
  unfold delayedParts
  rw [SentryFramesDelayResult.mk.injEq]
  constructor
  · have hsum := sum_overlap_filter (tracker.delayedFrames.map SentryDelayedFrame.delayedPart)
      (nanosecondsToTimeInterval startSystemTimestamp)
      (nanosecondsToTimeInterval endSystemTimestamp)
    rw [← hrecorded, List.map_map] at hsum
    rw [List.map_cons, List.sum_cons, List.map_reverse, List.sum_reverse, List.map_append,
      List.sum_append, ← hsum]
    simp only [hdelay, currentFrameDelay_overlap hlt, List.map_singleton, List.sum_singleton,
      Function.comp_def]
    ring
  · rw [List.filter_append, List.filter_singleton, List.length_append, ← hrecorded]
    simp [hpending]

/-- The parts that meet a query are counted, and no others are exactly when every part that did
not end before the query begins before its own end and that of the query. -/
theorem count_meeting_iff (parts : List DelayedPart) (start finish : ℚ) :
    (parts.filter fun part => start ≤ part.finish).length =
        (parts.filter fun part => part.Meets start finish).length ↔
      ∀ part ∈ parts, start ≤ part.finish →
        part.start ≤ part.finish ∧ part.start ≤ finish := by
  have hsub : (parts.filter fun part => part.Meets start finish) =
      (parts.filter fun part => start ≤ part.finish).filter fun part =>
        part.Meets start finish := by
    rw [List.filter_filter]
    apply List.filter_congr
    intro part _
    by_cases hmeets : part.Meets start finish
    · simp [hmeets, hmeets.2.2]
    · simp [hmeets]
  rw [hsub, eq_comm, List.length_filter_eq_length_iff]
  simp only [List.mem_filter, decide_eq_true_eq, and_imp]
  constructor
  · intro h part hpart hstart
    exact ⟨(h part hpart hstart).1, (h part hpart hstart).2.1⟩
  · intro h part hpart hstart
    exact ⟨(h part hpart hstart).1, (h part hpart hstart).2, hstart⟩

/-- One frame was delayed long before. -/
def exampleTracker : SentryDelayedFramesTracker where
  keepDelayedFramesDuration := 500
  delayedFrames := [⟨1000000000, 0, 0⟩, ⟨2000000000, 1 / 59, 1 / 2⟩]
  lastDelayedFrameSystemTimestamp := 2500000000
  previousFrameSystemTimestamp := 3000000000

theorem exampleTracker_accepts : exampleTracker.Accepts 3001000000 3000000000 3001000000 true where
  running := rfl
  start_lt_end := by decide
  end_le := by decide
  hasFrame := by decide
  oldest_le := by decide

theorem exampleTracker_recordedInOrder : RecordedInOrder exampleTracker.delayedFrames where
  nonneg := by decide +kernel
  fits := by decide +kernel
  sorted := by decide +kernel

theorem getFramesDelay_example :
    (exampleTracker.getFramesDelay 3001000000 3000000000 3001000000 true (1 / 59)) =
      { delayDuration := ((exampleTracker.delayedParts 3001000000 (1 / 59)).map
          (·.overlap (nanosecondsToTimeInterval 3000000000)
            (nanosecondsToTimeInterval 3001000000))).sum
        framesContributingToDelayCount :=
          ((exampleTracker.delayedParts 3001000000 (1 / 59)).filter fun part =>
            nanosecondsToTimeInterval 3000000000 ≤ part.finish).length } ∧
      ∀ part ∈ exampleTracker.delayedParts 3001000000 (1 / 59),
        part.Meets (nanosecondsToTimeInterval 3000000000)
          (nanosecondsToTimeInterval 3001000000) →
        part ∈ (exampleTracker.delayedParts 3001000000 (1 / 59)).filter fun part =>
          nanosecondsToTimeInterval 3000000000 ≤ part.finish :=
  getFramesDelay_eq exampleTracker_accepts exampleTracker_recordedInOrder (by decide)

/-- The frame that is still displayed counts before it is delayed. -/
theorem undelayed_frame_is_counted :
    exampleTracker.Accepts 3001000000 3000000000 3001000000 true ∧
    RecordedInOrder exampleTracker.delayedFrames ∧
    (exampleTracker.getFramesDelay 3001000000 3000000000 3001000000 true
        (1 / 59)).framesContributingToDelayCount ≠
      ((exampleTracker.delayedParts 3001000000 (1 / 59)).filter fun part =>
        part.Meets (nanosecondsToTimeInterval 3000000000)
          (nanosecondsToTimeInterval 3001000000)).length := by
  refine ⟨exampleTracker_accepts, exampleTracker_recordedInOrder, ?_⟩
  decide +kernel

end SentryDelayedFramesTracker

end SentryCocoa.FramesTracker
