import SentryCocoa.Library.Machine
import Mathlib.Algebra.Order.Floor.Defs
import Mathlib.Algebra.Order.Ring.Rat
import Mathlib.Data.Rat.Floor

/-! The frames tracker. The display link calls back for each frame, and the time since the frame
before tells whether it was slow, frozen or delayed. -/
namespace SentryCocoa.FramesTracker

def SentryFrozenFrameThreshold : ℚ := 7 / 10

def SentryPreviousFrameInitialValue : ℚ := -1

def timeIntervalToNanoseconds (seconds : ℚ) : Nat := ⌊seconds * 10 ^ 9⌋.toNat

/-- A division by zero, for one frame a second, gives a threshold that no frame exceeds. -/
def slowFrameThreshold (actualFramesPerSecond : Nat) : Option ℚ :=
  if actualFramesPerSecond = 1 then none else some (1 / (actualFramesPerSecond - 1))

/-- The duration is above the threshold. -/
def isAbove (frameDuration : ℚ) (threshold : Option ℚ) : Bool :=
  threshold.any fun threshold => threshold < frameDuration

structure SentryDelayedFrame where
  startSystemTimestamp : Nat
  expectedDuration : ℚ
  actualDuration : ℚ
  deriving DecidableEq

structure SentryDelayedFramesTracker where
  keepDelayedFramesDuration : ℚ
  delayedFrames : List SentryDelayedFrame
  lastDelayedFrameSystemTimestamp : Nat
  previousFrameSystemTimestamp : Nat

namespace SentryDelayedFramesTracker
variable (tracker : SentryDelayedFramesTracker)

/-- The list starts with an empty frame. -/
def resetDelayedFramesTimeStamps (systemTime : Nat) : SentryDelayedFramesTracker :=
  { tracker with delayedFrames := [⟨systemTime, 0, 0⟩] }

def init (keepDelayedFramesDuration : ℚ) (systemTime : Nat) : SentryDelayedFramesTracker :=
  resetDelayedFramesTimeStamps ⟨keepDelayedFramesDuration, [], 0, 0⟩ systemTime

/-- The binary search for the first frame that ends late enough. -/
def firstToKeep (removeFramesBefore left right : Nat) : Nat :=
  if left < right then
    let mid := (left + right) / 2
    let keep := (tracker.delayedFrames[mid]?).all fun frame =>
      removeFramesBefore ≤
        frame.startSystemTimestamp + timeIntervalToNanoseconds frame.actualDuration
    if keep then firstToKeep removeFramesBefore left mid
    else firstToKeep removeFramesBefore (mid + 1) right
  else left
termination_by right - left

def removeOldDelayedFrames (systemTime : Nat) : SentryDelayedFramesTracker :=
  let transactionMaxDurationNS := timeIntervalToNanoseconds tracker.keepDelayedFramesDuration
  { tracker with
    delayedFrames := tracker.delayedFrames.drop
      (tracker.firstToKeep (systemTime - transactionMaxDurationNS) 0
        tracker.delayedFrames.length) }

def recordDelayedFrame (startSystemTimestamp thisFrameSystemTimestamp : Nat)
    (expectedDuration actualDuration : ℚ) : SentryDelayedFramesTracker :=
  let tracker := tracker.removeOldDelayedFrames thisFrameSystemTimestamp
  { tracker with
    delayedFrames := tracker.delayedFrames ++
      [⟨startSystemTimestamp, expectedDuration, actualDuration⟩]
    lastDelayedFrameSystemTimestamp := thisFrameSystemTimestamp
    previousFrameSystemTimestamp := thisFrameSystemTimestamp }

end SentryDelayedFramesTracker

/-- What the display link and the profilers say when a frame is shown. -/
structure DisplayLink where
  timestamp : ℚ
  targetTimestamp : ℚ
  date : ℚ
  isTraceProfiling : Bool
  isContinuousProfiling : Bool

structure TimeSeriesEntry where
  timestamp : ℚ
  value : Nat
  deriving DecidableEq

/-- The display link exists while the tracker runs, the observers while it is started. -/
structure SentryFramesTracker where
  isStarted : Bool
  isRunning : Bool
  previousFrameTimestamp : ℚ
  previousFrameSystemTimestamp : Nat
  currentFrameRate : Nat
  totalFrames : Nat
  slowFrames : Nat
  frozenFrames : Nat
  slowFrameTimestamps : List TimeSeriesEntry
  frozenFrameTimestamps : List TimeSeriesEntry
  frameRateTimestamps : List TimeSeriesEntry
  delayedFramesTracker : SentryDelayedFramesTracker

namespace SentryFramesTracker
variable (tracker : SentryFramesTracker)

def init (keepDelayedFramesDuration : ℚ) (systemTime : Nat) : SentryFramesTracker where
  isStarted := false
  isRunning := false
  previousFrameTimestamp := SentryPreviousFrameInitialValue
  previousFrameSystemTimestamp := 0
  currentFrameRate := 60
  totalFrames := 0
  slowFrames := 0
  frozenFrames := 0
  slowFrameTimestamps := []
  frozenFrameTimestamps := []
  frameRateTimestamps := []
  delayedFramesTracker := .init keepDelayedFramesDuration systemTime

def resetProfilingTimestamps : SentryFramesTracker := { tracker with
  slowFrameTimestamps := [], frozenFrameTimestamps := [], frameRateTimestamps := [] }

def unpause : SentryFramesTracker :=
  if tracker.isRunning then tracker else { tracker with isRunning := true }

def pause : SentryFramesTracker := { tracker with isRunning := false }

def start : SentryFramesTracker :=
  if tracker.isStarted then tracker else { tracker with isStarted := true }.unpause

def stop (systemTime : Nat) : SentryFramesTracker :=
  if tracker.isStarted then { { tracker with isStarted := false }.pause with
    delayedFramesTracker := tracker.delayedFramesTracker.resetDelayedFramesTimeStamps systemTime }
  else tracker

/-- Notifications are observed from the start to the stop. -/
def didBecomeActive : SentryFramesTracker := if tracker.isStarted then tracker.unpause else tracker

def willResignActive : SentryFramesTracker := if tracker.isStarted then tracker.pause else tracker

def frameRate (link : DisplayLink) : Nat :=
  if link.targetTimestamp ≠ link.timestamp then
    (round (1 / (link.targetTimestamp - link.timestamp))).toNat
  else 60

/-- The thresholds that a frame exceeds. -/
def isSlow (frameDuration : ℚ) (frameRate : Nat) : Bool :=
  isAbove frameDuration (slowFrameThreshold frameRate) &&
    frameDuration ≤ SentryFrozenFrameThreshold

def isFrozen (frameDuration : ℚ) : Bool := SentryFrozenFrameThreshold < frameDuration

def isDelayed (frameDuration : ℚ) (frameRate : Nat) : Bool :=
  isAbove frameDuration (slowFrameThreshold frameRate)

def displayLinkCallback (link : DisplayLink) (thisFrameSystemTimestamp : Nat) :
    SentryFramesTracker :=
  if tracker.previousFrameTimestamp = SentryPreviousFrameInitialValue then { tracker with
    previousFrameTimestamp := link.timestamp
    previousFrameSystemTimestamp := thisFrameSystemTimestamp
    delayedFramesTracker := { tracker.delayedFramesTracker with
      previousFrameSystemTimestamp := thisFrameSystemTimestamp } }
  else
    let currentFrameRate := frameRate link
    let profilingTimestamp :=
      if link.isContinuousProfiling then link.date else thisFrameSystemTimestamp
    let isProfiling := link.isTraceProfiling || link.isContinuousProfiling
    let shouldRecordNewFrameRate :=
      (tracker.frameRateTimestamps.getLast?.map TimeSeriesEntry.value) ≠ some currentFrameRate
    let frameDuration := link.timestamp - tracker.previousFrameTimestamp
    let recordTimestamp := fun (value : Nat) (array : List TimeSeriesEntry) =>
      if isProfiling then array ++ [⟨profilingTimestamp, value⟩] else array
    let systemDuration := thisFrameSystemTimestamp - tracker.previousFrameSystemTimestamp
    { tracker with
      previousFrameTimestamp := link.timestamp
      previousFrameSystemTimestamp := thisFrameSystemTimestamp
      currentFrameRate := currentFrameRate
      totalFrames := (tracker.totalFrames + 1) % 2 ^ 32
      slowFrames :=
        if isSlow frameDuration currentFrameRate then (tracker.slowFrames + 1) % 2 ^ 32
        else tracker.slowFrames
      frozenFrames :=
        if isFrozen frameDuration then (tracker.frozenFrames + 1) % 2 ^ 32
        else tracker.frozenFrames
      slowFrameTimestamps :=
        if isSlow frameDuration currentFrameRate then
          recordTimestamp systemDuration tracker.slowFrameTimestamps
        else tracker.slowFrameTimestamps
      frozenFrameTimestamps :=
        if isFrozen frameDuration then
          recordTimestamp systemDuration tracker.frozenFrameTimestamps
        else tracker.frozenFrameTimestamps
      frameRateTimestamps :=
        if shouldRecordNewFrameRate then
          recordTimestamp currentFrameRate tracker.frameRateTimestamps
        else tracker.frameRateTimestamps
      delayedFramesTracker :=
        if isDelayed frameDuration currentFrameRate then
          tracker.delayedFramesTracker.recordDelayedFrame tracker.previousFrameSystemTimestamp
            thisFrameSystemTimestamp ((slowFrameThreshold currentFrameRate).getD 0) frameDuration
        else { tracker.delayedFramesTracker with
          previousFrameSystemTimestamp := thisFrameSystemTimestamp } }

end SentryFramesTracker

end SentryCocoa.FramesTracker
