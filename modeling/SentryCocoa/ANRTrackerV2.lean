import Mathlib.Algebra.Group.Nat.Even
import SentryCocoa.FramesDelay
import SentryCocoa.Library.Machine

/-! The second tracker of app hangs: one turn of its loop, the queue that delivers the end of a
hang, and what a listener is told. The clock of the system does not go back. -/
namespace SentryCocoa.ANRTrackerV2
open SentryCocoa.Foundation SentryCocoa.FramesTracker SentryCocoa.Library.Machine

inductive SentryANRType where
  | fullyBlocking
  | nonFullyBlocking
  | unknown
  deriving DecidableEq, Repr

/-- The time that makes a delay a hang, in seconds. The conversion to nanoseconds asserts the
bounds. -/
structure TimeoutInterval where
  seconds : ℚ
  seconds_nonneg : 0 ≤ seconds
  seconds_lt : seconds * 10 ^ 9 < 2 ^ 64

namespace TimeoutInterval
variable (timeoutInterval : TimeoutInterval)

def timeoutIntervalInNanos : Nat := timeIntervalToNanoseconds timeoutInterval.seconds

def reportThreshold : Nat := 5

def sleepInterval : ℚ := timeoutInterval.seconds / reportThreshold

def appHangStoppedInterval : Nat := timeIntervalToNanoseconds (timeoutInterval.sleepInterval * 2)

def appHangStoppedFrameDelayThreshold : ℚ :=
  nanosecondsToTimeInterval timeoutInterval.appHangStoppedInterval * (2 / 10)

end TimeoutInterval

/-- What a turn of the loop is told: the date before and after its sleep, in seconds, two looks
at the clock of the system, in nanoseconds, and the delay of the frames. Whoever listens is
called after that. -/
structure Reading where
  date : ℚ
  isApplicationInForeground : Bool
  dateAfterSleep : ℚ
  nowSystemTime : Nat
  systemTime : Nat
  getFramesDelay : Nat → Nat → SentryFramesDelayResult
  callTime : Nat

/-- The variables of `detectANRs` that live longer than a turn. -/
structure DetectANRs where
  reported : Bool
  lastAppHangStoppedSystemTime : Nat

inductive Turn where
  | ignored
  /-- The end of the hang goes into the queue. -/
  | stopped
  | detected (type : SentryANRType)
  deriving DecidableEq

def Turn.isDetected : Turn → Bool
  | .detected _ => true
  | _ => false

namespace DetectANRs
variable (timeoutInterval : TimeoutInterval)

def begin (systemTime : Nat) : DetectANRs where
  reported := false
  lastAppHangStoppedSystemTime := wrap (systemTime - timeoutInterval.timeoutIntervalInNanos)

/-- The app was in the background, or it was suspended. -/
def slept (reading : Reading) : Bool :=
  let sleepDeadline := reading.date + timeoutInterval.seconds
  let deltaFromNowToSleepDeadline := reading.dateAfterSleep - sleepDeadline
  !reading.isApplicationInForeground || timeoutInterval.seconds ≤ deltaFromNowToSleepDeadline

def appHangStopped (reading : Reading) : Bool :=
  let framesDelayStartSystemTime :=
    wrap (reading.nowSystemTime - timeoutInterval.appHangStoppedInterval)
  let framesDelay := reading.getFramesDelay framesDelayStartSystemTime reading.nowSystemTime
  framesDelay.delayDuration ≠ -1 ∧
    framesDelay.delayDuration < timeoutInterval.appHangStoppedFrameDelayThreshold

/-- A hang of the last interval, of either kind. -/
def appHang (reading : Reading) : Option SentryANRType :=
  let frameDelayStartSystemTime :=
    wrap (reading.nowSystemTime - timeoutInterval.timeoutIntervalInNanos)
  let framesDelayForTimeInterval :=
    reading.getFramesDelay frameDelayStartSystemTime reading.nowSystemTime
  let framesDelayForTimeIntervalInNanos :=
    timeIntervalToNanoseconds framesDelayForTimeInterval.delayDuration
  let isFullyBlocking := framesDelayForTimeInterval.framesContributingToDelayCount = 1
  let nonFullyBlockingFramesDelayThreshold := timeoutInterval.seconds * (99 / 100)
  if framesDelayForTimeInterval.delayDuration = -1 then none
  else if isFullyBlocking ∧
      timeoutInterval.timeoutIntervalInNanos ≤ framesDelayForTimeIntervalInNanos then
    some .fullyBlocking
  else if ¬isFullyBlocking ∧
      nonFullyBlockingFramesDelayThreshold < framesDelayForTimeInterval.delayDuration then
    some .nonFullyBlocking
  else none

/-- A hang is not long ago. The sum is that of unsigned integers. -/
def stoppedRecently (loop : DetectANRs) (reading : Reading) : Bool :=
  reading.systemTime <
    wrap (loop.lastAppHangStoppedSystemTime + timeoutInterval.timeoutIntervalInNanos)

/-- One turn of the loop. -/
def turn (loop : DetectANRs) (reading : Reading) : Turn × DetectANRs :=
  if slept timeoutInterval reading then (.ignored, loop)
  else if loop.reported then
    if appHangStopped timeoutInterval reading then (.stopped, ⟨false, reading.systemTime⟩)
    else (.ignored, loop)
  else if loop.stoppedRecently timeoutInterval reading then (.ignored, loop)
  else match appHang timeoutInterval reading with
    | some type => (.detected type, { loop with reported := true })
    | none => (.ignored, loop)

/-- Everything that a turn can do. -/
theorem turn_cases (loop : DetectANRs) (reading : Reading) :
    loop.turn timeoutInterval reading = (.ignored, loop) ∨
      (loop.reported = true ∧
        loop.turn timeoutInterval reading = (.stopped, ⟨false, reading.systemTime⟩)) ∨
      ∃ type, loop.reported = false ∧ loop.stoppedRecently timeoutInterval reading = false ∧
        loop.turn timeoutInterval reading = (.detected type, { loop with reported := true }) := by
  unfold turn
  by_cases hslept : slept timeoutInterval reading = true
  · exact .inl (if_pos hslept)
  rw [if_neg hslept]
  by_cases hreported : loop.reported = true
  · rw [if_pos hreported]
    by_cases hstopped : appHangStopped timeoutInterval reading = true
    · exact .inr (.inl ⟨hreported, if_pos hstopped⟩)
    · exact .inl (if_neg hstopped)
  rw [if_neg hreported]
  by_cases hrecently : loop.stoppedRecently timeoutInterval reading = true
  · exact .inl (if_pos hrecently)
  rw [if_neg hrecently]
  cases appHang timeoutInterval reading with
  | none => exact .inl rfl
  | some type =>
    exact .inr (.inr ⟨type, by simpa using hreported, by simpa using hrecently, rfl⟩)

end DetectANRs

/-- A call that a listener gets, with the time at which it is told of a hang. -/
inductive Call where
  | anrDetectedWithType (type : SentryANRType) (callTime : Nat)
  | anrStopped
  deriving DecidableEq

/-- The tracker and one of its listeners, which stays once it is added. -/
structure Tracker where
  clock : Nat
  loop : DetectANRs
  /-- How many blocks that call `ANRStopped` wait in the queue. -/
  dispatchQueue : Nat
  listens : Bool
  calls : List Call

inductive Input where
  | detectANRs (reading : Reading)
  /-- The queue runs a block. -/
  | ANRStopped
  | addListener

namespace Tracker
variable (timeoutInterval : TimeoutInterval)

/-- A thread begins. Blocks of an earlier one can still wait. -/
def init (systemTime dispatchQueue : Nat) : Tracker where
  clock := systemTime
  loop := .begin timeoutInterval systemTime
  dispatchQueue := dispatchQueue
  listens := false
  calls := []

/-- The listeners are called one by one, this one only if it was added. -/
def receive (tracker : Tracker) (call : Call) : Tracker :=
  if tracker.listens then { tracker with calls := tracker.calls ++ [call] } else tracker

def ANRDetected (tracker : Tracker) (type : SentryANRType) (callTime : Nat) : Tracker :=
  tracker.receive (.anrDetectedWithType type callTime)

def ANRStopped (tracker : Tracker) : Tracker := tracker.receive .anrStopped

def detectANRs (tracker : Tracker) (reading : Reading) : Tracker :=
  let (turn, loop) := tracker.loop.turn timeoutInterval reading
  let tracker := { tracker with clock := reading.callTime, loop := loop }
  match turn with
  | .ignored => tracker
  | .stopped => { tracker with dispatchQueue := tracker.dispatchQueue + 1 }
  | .detected type => tracker.ANRDetected type reading.callTime

def step (tracker : Tracker) : Input → Option Tracker
  | .detectANRs reading =>
    if tracker.clock ≤ reading.nowSystemTime ∧ reading.nowSystemTime ≤ reading.systemTime ∧
        reading.systemTime ≤ reading.callTime ∧ reading.callTime < 2 ^ 64 then
      some (tracker.detectANRs timeoutInterval reading)
    else none
  | .ANRStopped =>
    if tracker.dispatchQueue = 0 then none
    else some { tracker with dispatchQueue := tracker.dispatchQueue - 1 }.ANRStopped
  | .addListener => some { tracker with listens := true }

end Tracker

/-! What a listener is told. -/

def Call.isDetected : Call → Bool
  | .anrDetectedWithType _ _ => true
  | .anrStopped => false

def Call.detectedAt : Call → Option Nat
  | .anrDetectedWithType _ callTime => some callTime
  | .anrStopped => none

def detections (calls : List Call) : List Nat := calls.filterMap Call.detectedAt

/-- Detections and ends take turns; an even number begins with a detection. -/
def Alternates (first : Nat) (calls : List Call) : Prop :=
  ∀ i call, calls[i]? = some call → (call.isDetected = true ↔ Even (first + i))

def Spaced (timeoutInterval : TimeoutInterval) (calls : List Call) : Prop :=
  (detections calls).Pairwise fun earlier later =>
    earlier + timeoutInterval.timeoutIntervalInNanos ≤ later

theorem Alternates.isDetected_iff {first : Nat} {calls : List Call} (h : Alternates first calls)
    {i : Nat} {detected : Bool} (hi : (calls.map Call.isDetected)[i]? = some detected) :
    detected = true ↔ Even (first + i) := by
  rw [List.getElem?_map] at hi
  obtain ⟨call, hcall, rfl⟩ := Option.map_eq_some_iff.mp hi
  exact h i call hcall

theorem Alternates.concat {first : Nat} {calls : List Call} (h : Alternates first calls)
    {call : Call} (hcall : call.isDetected = true ↔ Even (first + calls.length)) :
    Alternates first (calls ++ [call]) := by
  intro i other hother
  rcases Nat.lt_trichotomy i calls.length with hlt | rfl | hgt
  · rw [List.getElem?_append_left hlt] at hother
    exact h i other hother
  · rw [List.getElem?_concat_length] at hother
    cases hother
    exact hcall
  · have hlength : (calls ++ [call]).length ≤ i := by
      rw [List.length_append, List.length_singleton]
      omega
    rw [List.getElem?_eq_none hlength] at hother
    cases hother

theorem detections_concat_detected (calls : List Call) (type : SentryANRType) (callTime : Nat) :
    detections (calls ++ [.anrDetectedWithType type callTime]) = detections calls ++ [callTime] :=
  List.filterMap_append

theorem detections_concat_stopped (calls : List Call) :
    detections (calls ++ [.anrStopped]) = detections calls :=
  List.filterMap_append.trans (List.append_nil _)

/-- The ends that were announced, or will be, without a detection before them. -/
def Tracker.stopsToCome (tracker : Tracker) : Nat :=
  tracker.loop.reported.toNat + tracker.dispatchQueue

/-- The tracker, and how many ends were to come when the listener was added. -/
structure Run where
  tracker : Tracker
  awaited : Nat

namespace Run
variable (timeoutInterval : TimeoutInterval)

def init (systemTime dispatchQueue : Nat) : Run :=
  ⟨.init timeoutInterval systemTime dispatchQueue, 0⟩

def awaits (s : Run) : Input → Nat
  | .addListener => if s.tracker.listens then s.awaited else s.tracker.stopsToCome
  | _ => s.awaited

def step (s : Run) (input : Input) : Option Run :=
  (s.tracker.step timeoutInterval input).map fun tracker => ⟨tracker, s.awaits input⟩

/-- The calls begin with the end that was to come when the listener was added, if there was
one. -/
structure Correct (s : Run) : Prop where
  alternates : Alternates s.awaited s.tracker.calls
  spaced : Spaced timeoutInterval s.tracker.calls

/-- The tracker does not tell of a hang before it told of the end of the last one, the clock
counts far enough to wait for the next one, and the listener is not added between two ends. -/
def InTime (s : Run) : Input → Prop
  | .detectANRs reading => s.tracker.listens = true →
    (s.tracker.loop.turn timeoutInterval reading).1.isDetected = true →
      s.tracker.dispatchQueue = 0 ∧ (detections s.tracker.calls ≠ [] →
        s.tracker.loop.lastAppHangStoppedSystemTime + timeoutInterval.timeoutIntervalInNanos <
          2 ^ 64)
  | .ANRStopped => True
  | .addListener => s.tracker.listens = false → s.tracker.stopsToCome ≤ 1

instance (s : Run) : DecidablePred (InTime timeoutInterval s)
  | .detectANRs _ => inferInstanceAs (Decidable (_ → _ → _ ∧ (_ ≠ _ → _)))
  | .ANRStopped => .isTrue trivial
  | .addListener => inferInstanceAs (Decidable (_ → _ ≤ _))

structure Inv (s : Run) : Prop where
  silent : s.tracker.listens = false → s.tracker.calls = []
  parity : s.tracker.listens = true →
    s.tracker.stopsToCome = (s.awaited + s.tracker.calls.length) % 2
  alternates : Alternates s.awaited s.tracker.calls
  spaced : Spaced timeoutInterval s.tracker.calls
  past : ∀ callTime ∈ detections s.tracker.calls, callTime ≤ s.tracker.clock ∧
    (s.tracker.loop.reported = false → callTime ≤ s.tracker.loop.lastAppHangStoppedSystemTime)

theorem Inv.init (systemTime dispatchQueue : Nat) :
    (init timeoutInterval systemTime dispatchQueue).Inv timeoutInterval where
  silent := fun _ => rfl
  parity := by
    rintro ⟨⟩
  alternates := fun _ _ hnone => (nomatch hnone)
  spaced := List.Pairwise.nil
  past := List.forall_mem_nil _

section Steps
variable {timeoutInterval} {s s' : Run}

/-- A hang is only told of when the interval since the last end is over. -/
theorem Inv.past_le (inv : s.Inv timeoutInterval) {reading : Reading}
    (hsum : detections s.tracker.calls ≠ [] →
      s.tracker.loop.lastAppHangStoppedSystemTime + timeoutInterval.timeoutIntervalInNanos < 2 ^ 64)
    (hreported : s.tracker.loop.reported = false)
    (hrecently : s.tracker.loop.stoppedRecently timeoutInterval reading = false) :
    ∀ callTime ∈ detections s.tracker.calls,
      callTime + timeoutInterval.timeoutIntervalInNanos ≤ reading.systemTime := by
  intro callTime hcallTime
  have hlast := (inv.past callTime hcallTime).2 hreported
  have hwaited := of_decide_eq_false hrecently
  rw [← Nat.cast_add, wrap_of_lt (hsum (List.ne_nil_of_mem hcallTime))] at hwaited
  omega

theorem Inv.past_of_le (inv : s.Inv timeoutInterval) {time : Nat} (hclock : s.tracker.clock ≤ time) :
    ∀ callTime ∈ detections s.tracker.calls, callTime ≤ time :=
  fun callTime hcallTime => (inv.past callTime hcallTime).1.trans hclock

/-- The turn of the loop that tells of a hang. -/
theorem Inv.detected (inv : s.Inv timeoutInterval) {reading : Reading} {type : SentryANRType}
    (hclock : s.tracker.clock ≤ reading.systemTime) (hcall : reading.systemTime ≤ reading.callTime)
    (hintime : s.InTime timeoutInterval (.detectANRs reading))
    (hreported : s.tracker.loop.reported = false)
    (hrecently : s.tracker.loop.stoppedRecently timeoutInterval reading = false)
    (hturn : s.tracker.loop.turn timeoutInterval reading =
      (.detected type, { s.tracker.loop with reported := true })) :
    Inv timeoutInterval ⟨s.tracker.detectANRs timeoutInterval reading, s.awaited⟩ := by
  have hpast := inv.past_of_le (hclock.trans hcall)
  unfold Tracker.detectANRs Tracker.ANRDetected Tracker.receive
  rw [hturn]
  dsimp only
  cases hlistens : s.tracker.listens with
  | false =>
    rw [if_neg Bool.false_ne_true]
    exact ⟨fun _ => inv.silent hlistens, fun hfalse => (nomatch hfalse), inv.alternates,
      inv.spaced, fun callTime hcallTime => ⟨hpast callTime hcallTime, fun hfalse => (nomatch hfalse)⟩⟩
  | true =>
    obtain ⟨hqueue, hsum⟩ := hintime hlistens (by rw [hturn, Turn.isDetected])
    have hwaited := inv.past_le hsum hreported hrecently
    have hparity := inv.parity hlistens
    unfold Tracker.stopsToCome at hparity
    rw [hreported, hqueue] at hparity
    change 0 = _ at hparity
    rw [if_pos rfl]
    refine ⟨fun hfalse => (nomatch hfalse), fun _ => ?_, ?_, ?_, ?_⟩
    · change 1 + s.tracker.dispatchQueue = (s.awaited + _) % 2
      rw [hqueue, List.length_append, List.length_singleton]
      omega
    · apply inv.alternates.concat
      simp only [Call.isDetected, true_iff, Nat.even_iff]
      omega
    · unfold Spaced
      rw [detections_concat_detected, List.pairwise_append]
      refine ⟨inv.spaced, List.pairwise_singleton _ _, fun earlier hearlier later hlater => ?_⟩
      rw [List.mem_singleton.mp hlater]
      exact (hwaited earlier hearlier).trans hcall
    · rw [detections_concat_detected]
      intro callTime hcallTime
      refine ⟨?_, fun hfalse => (nomatch hfalse)⟩
      rcases List.mem_append.mp hcallTime with hearlier | hnow
      · exact hpast callTime hearlier
      · exact (List.mem_singleton.mp hnow).le

theorem Inv.detectANRs (inv : s.Inv timeoutInterval) {reading : Reading}
    (hclock : s.tracker.clock ≤ reading.systemTime) (hcall : reading.systemTime ≤ reading.callTime)
    (hintime : s.InTime timeoutInterval (.detectANRs reading)) :
    Inv timeoutInterval ⟨s.tracker.detectANRs timeoutInterval reading, s.awaited⟩ := by
  have hpast := inv.past_of_le (hclock.trans hcall)
  rcases s.tracker.loop.turn_cases timeoutInterval reading with
    hturn | ⟨hreported, hturn⟩ | ⟨type, hreported, hrecently, hturn⟩
  · unfold Tracker.detectANRs
    rw [hturn]
    exact ⟨inv.silent, inv.parity, inv.alternates, inv.spaced, fun callTime hcallTime =>
      ⟨hpast callTime hcallTime, (inv.past callTime hcallTime).2⟩⟩
  · -- The end of the hang moves from the loop to the queue.
    have hstops : s.tracker.stopsToCome = false.toNat + (s.tracker.dispatchQueue + 1) := by
      unfold Tracker.stopsToCome
      rw [hreported]
      change 1 + s.tracker.dispatchQueue = 0 + (s.tracker.dispatchQueue + 1)
      omega
    unfold Tracker.detectANRs
    rw [hturn]
    exact ⟨inv.silent, fun hlistens => hstops.symm.trans (inv.parity hlistens), inv.alternates,
      inv.spaced, fun callTime hcallTime =>
        ⟨hpast callTime hcallTime, fun _ => inv.past_of_le hclock callTime hcallTime⟩⟩
  · exact inv.detected hclock hcall hintime hreported hrecently hturn

theorem Inv.ANRStopped (inv : s.Inv timeoutInterval) (hqueue : s.tracker.dispatchQueue ≠ 0) :
    Inv timeoutInterval
      ⟨{ s.tracker with dispatchQueue := s.tracker.dispatchQueue - 1 }.ANRStopped, s.awaited⟩ := by
  unfold Tracker.ANRStopped Tracker.receive
  dsimp only
  cases hlistens : s.tracker.listens with
  | false =>
    rw [if_neg Bool.false_ne_true]
    exact ⟨fun _ => inv.silent hlistens, fun hfalse => absurd hfalse (by simp), inv.alternates, inv.spaced,
      inv.past⟩
  | true =>
    have hparity := inv.parity hlistens
    unfold Tracker.stopsToCome at hparity
    rw [if_pos rfl]
    refine ⟨fun hfalse => (nomatch hfalse), fun _ => ?_, ?_, ?_, ?_⟩
    · change s.tracker.loop.reported.toNat + (s.tracker.dispatchQueue - 1) = (s.awaited + _) % 2
      rw [List.length_append, List.length_singleton]
      omega
    · apply inv.alternates.concat
      simp only [Call.isDetected, Bool.false_eq_true, false_iff, Nat.even_iff]
      omega
    · unfold Spaced
      rw [detections_concat_stopped]
      exact inv.spaced
    · rw [detections_concat_stopped]
      exact inv.past

/-- The listener is added, or it was there before. -/
theorem Inv.addListener (inv : s.Inv timeoutInterval)
    (hintime : s.InTime timeoutInterval .addListener) :
    Inv timeoutInterval ⟨{ s.tracker with listens := true }, s.awaits .addListener⟩ := by
  unfold awaits
  cases hlistens : s.tracker.listens with
  | true =>
    rw [if_pos rfl]
    exact ⟨fun hfalse => (nomatch hfalse), fun _ => inv.parity hlistens, inv.alternates, inv.spaced, inv.past⟩
  | false =>
    have hcalls := inv.silent hlistens
    have hstops := hintime hlistens
    rw [if_neg Bool.false_ne_true]
    refine ⟨fun hfalse => (nomatch hfalse), fun _ => ?_, ?_, inv.spaced, inv.past⟩
    · change s.tracker.stopsToCome = (s.tracker.stopsToCome + s.tracker.calls.length) % 2
      rw [hcalls, List.length_nil]
      omega
    · change Alternates _ s.tracker.calls
      rw [hcalls]
      exact fun _ _ hnone => (nomatch hnone)

theorem Inv.step {input : Input} (inv : s.Inv timeoutInterval)
    (hintime : s.InTime timeoutInterval input) (hstep : s.step timeoutInterval input = some s') :
    s'.Inv timeoutInterval := by
  obtain ⟨tracker, htracker, rfl⟩ := Option.map_eq_some_iff.mp hstep
  unfold Tracker.step at htracker
  cases input with
  | detectANRs reading =>
    dsimp only at htracker
    split at htracker
    · rename_i hclock
      cases htracker
      exact inv.detectANRs (hclock.1.trans hclock.2.1) hclock.2.2.1 hintime
    · cases htracker
  | ANRStopped =>
    dsimp only at htracker
    split at htracker
    · cases htracker
    · rename_i hqueue
      cases htracker
      exact inv.ANRStopped hqueue
  | addListener =>
    cases htracker
    exact inv.addListener hintime

end Steps

/-- In every run that is in time the calls of the listener take turns, and detections are at
least the interval apart. -/
theorem always_takesTurns (systemTime dispatchQueue : Nat) (inputs : List Input)
    (intime : Allowed (step timeoutInterval) (InTime timeoutInterval)
      (init timeoutInterval systemTime dispatchQueue) inputs) :
    Always (step timeoutInterval) (Correct timeoutInterval)
      (init timeoutInterval systemTime dispatchQueue) inputs :=
  always_of_allowed (fun _ inv => ⟨inv.alternates, inv.spaced⟩)
    (fun _ _ _ inv hintime hstep => inv.step hintime hstep)
    (Inv.init timeoutInterval systemTime dispatchQueue) intime

def exampleTimeoutInterval : TimeoutInterval := ⟨2, by decide +kernel, by decide +kernel⟩

/-- The app is in the foreground, and its frames were delayed for some seconds until now. -/
def exampleReading (now : Nat) (delay : ℚ) : Reading where
  date := 0
  isApplicationInForeground := true
  dateAfterSleep := 0
  nowSystemTime := now
  systemTime := now
  getFramesDelay _ _ := ⟨delay, 1⟩
  callTime := now

theorem always_takesTurns_twoHangs : Always (step exampleTimeoutInterval)
    (Correct exampleTimeoutInterval) (init exampleTimeoutInterval (5 * 10 ^ 9) 0)
    [.addListener, .detectANRs (exampleReading (7 * 10 ^ 9) 2),
      .detectANRs (exampleReading (8 * 10 ^ 9) 0), .ANRStopped,
      .detectANRs (exampleReading (10 * 10 ^ 9) 2)] :=
  always_takesTurns exampleTimeoutInterval (5 * 10 ^ 9) 0 _ (by decide +kernel)

/-- Some three hundred years. The clock is too short to wait that long. -/
def longTimeoutInterval : TimeoutInterval := ⟨10 ^ 10, by decide +kernel, by decide +kernel⟩

/-- The end of the first hang waits in the queue when the second one is found. -/
def lateStop : List Input :=
  [.addListener, .detectANRs (exampleReading (7 * 10 ^ 9) 2),
    .detectANRs (exampleReading (8 * 10 ^ 9) 0), .detectANRs (exampleReading (10 * 10 ^ 9) 2)]

/-- The listener is added during a hang. -/
def lateListener : List Input :=
  [.detectANRs (exampleReading (7 * 10 ^ 9) 2), .addListener,
    .detectANRs (exampleReading (8 * 10 ^ 9) 0), .ANRStopped]

/-- The sum of the last end and the interval is past the end of the clock. -/
def earlyHang : List Input :=
  [.addListener, .detectANRs (exampleReading (9 * 10 ^ 18) (10 ^ 10)),
    .detectANRs (exampleReading (10 * 10 ^ 18) 0), .ANRStopped,
    .detectANRs (exampleReading (11 * 10 ^ 18) (10 ^ 10))]

theorem not_alternates_spaced :
    ¬Always (step exampleTimeoutInterval) (fun s => Alternates 0 s.tracker.calls)
      (init exampleTimeoutInterval (5 * 10 ^ 9) 0) lateStop ∧
    ¬Always (step exampleTimeoutInterval) (fun s => Alternates 0 s.tracker.calls)
      (init exampleTimeoutInterval (5 * 10 ^ 9) 0) lateListener ∧
    ¬Always (step longTimeoutInterval) (fun s => Spaced longTimeoutInterval s.tracker.calls)
      (init longTimeoutInterval (2 * 10 ^ 18) 0) earlyHang := by
  have hstop : (exec (step exampleTimeoutInterval) (init exampleTimeoutInterval (5 * 10 ^ 9) 0)
      lateStop).map (fun s => s.tracker.calls.map Call.isDetected) = some [true, true] := by
    decide +kernel
  have hlistener : (exec (step exampleTimeoutInterval)
      (init exampleTimeoutInterval (5 * 10 ^ 9) 0) lateListener).map
        (fun s => s.tracker.calls.map Call.isDetected) = some [false] := by
    decide +kernel
  have hhang : (exec (step longTimeoutInterval) (init longTimeoutInterval (2 * 10 ^ 18) 0)
      earlyHang).map (fun s => detections s.tracker.calls) =
        some [9 * 10 ^ 18, 11 * 10 ^ 18] := by
    decide +kernel
  refine ⟨fun h => ?_, fun h => ?_, fun h => ?_⟩
  · obtain ⟨s, hrun, hcalls⟩ := Option.map_eq_some_iff.mp hstop
    have hsecond : (s.tracker.calls.map Call.isDetected)[1]? = some true := by rw [hcalls]; rfl
    exact absurd ((h.exec hrun).isDetected_iff hsecond) (by decide)
  · obtain ⟨s, hrun, hcalls⟩ := Option.map_eq_some_iff.mp hlistener
    have hfirst : (s.tracker.calls.map Call.isDetected)[0]? = some false := by rw [hcalls]; rfl
    exact absurd ((h.exec hrun).isDetected_iff hfirst) (by decide)
  · obtain ⟨s, hrun, hcalls⟩ := Option.map_eq_some_iff.mp hhang
    have hspaced := h.exec hrun
    unfold Spaced at hspaced
    rw [hcalls, List.pairwise_pair] at hspaced
    exact absurd hspaced (by decide +kernel)

end Run

end SentryCocoa.ANRTrackerV2
