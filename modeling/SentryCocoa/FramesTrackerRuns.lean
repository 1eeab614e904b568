import SentryCocoa.FramesTracker

/-! The frames of a run and the periods in which the tracker was running. -/
namespace SentryCocoa.FramesTracker
open SentryCocoa.Library.Machine

/-- A frame that was slow, frozen or delayed, from the frame before it to its own. -/
structure RecordedFrame where
  startSystemTimestamp : Nat
  endSystemTimestamp : Nat
  slow : Bool
  frozen : Bool
  delayed : Bool
  deriving DecidableEq

/-- The periods have a start and an end; the current one has a start. -/
structure FramesRun where
  tracker : SentryFramesTracker
  systemTime : Nat
  runningSince : Option Nat
  periods : List (Nat × Nat)
  recorded : List RecordedFrame

namespace FramesRun

inductive Call where
  | start | stop | didBecomeActive | willResignActive | pause | unpause | resetProfilingTimestamps
  | displayLinkCallback (link : DisplayLink)

def init (keepDelayedFramesDuration : ℚ) (systemTime : Nat) : FramesRun where
  tracker := .init keepDelayedFramesDuration systemTime
  systemTime := systemTime
  runningSince := none
  periods := []
  recorded := []

variable (s : FramesRun)

/-- What the tracker does; the display link calls back while it exists. -/
def react (systemTime : Nat) : Call → Option SentryFramesTracker
  | .start => some s.tracker.start
  | .stop => some (s.tracker.stop systemTime)
  | .didBecomeActive => some s.tracker.didBecomeActive
  | .willResignActive => some s.tracker.willResignActive
  | .pause => some s.tracker.pause
  | .unpause => some s.tracker.unpause
  | .resetProfilingTimestamps => some s.tracker.resetProfilingTimestamps
  | .displayLinkCallback link =>
    if s.tracker.isRunning then some (s.tracker.displayLinkCallback link systemTime) else none

/-- The frame that ends with a callback. -/
def frame (link : DisplayLink) (systemTime : Nat) : RecordedFrame :=
  let frameDuration := link.timestamp - s.tracker.previousFrameTimestamp
  let currentFrameRate := SentryFramesTracker.frameRate link
  ⟨s.tracker.previousFrameSystemTimestamp, systemTime,
    SentryFramesTracker.isSlow frameDuration currentFrameRate,
    SentryFramesTracker.isFrozen frameDuration,
    SentryFramesTracker.isDelayed frameDuration currentFrameRate⟩

/-- It is recorded when there was a frame before and it took too long. -/
def newFrames (systemTime : Nat) : Call → List RecordedFrame
  | .displayLinkCallback link =>
    if s.tracker.previousFrameTimestamp = SentryPreviousFrameInitialValue then []
    else [s.frame link systemTime].filter fun frame => frame.slow || frame.frozen || frame.delayed
  | _ => []

/-- Time goes on from call to call; a period begins and ends with the running of the tracker. -/
def step (input : Nat × Call) : Option FramesRun :=
  if input.1 ≤ s.systemTime then none
  else (s.react input.1 input.2).map fun tracker => {
    tracker := tracker
    systemTime := input.1
    runningSince :=
      if tracker.isRunning then some (s.runningSince.getD input.1) else none
    periods :=
      if tracker.isRunning then s.periods
      else s.periods ++ s.runningSince.toList.map fun since => (since, input.1)
    recorded := s.recorded ++ s.newFrames input.1 input.2 }

/-- The frame lies in one period. -/
def Inside (frame : RecordedFrame) : Prop :=
  (∃ period ∈ s.periods, period.1 ≤ frame.startSystemTimestamp ∧
      frame.endSystemTimestamp ≤ period.2) ∨
    ∃ since ∈ s.runningSince, since ≤ frame.startSystemTimestamp

def Correct : Prop := ∀ frame ∈ s.recorded, s.Inside frame

/-- A frame that takes too long began after the tracker was last set going. -/
def InTime (input : Nat × Call) : Prop :=
  match input.2 with
  | .displayLinkCallback link =>
    s.tracker.previousFrameTimestamp ≠ SentryPreviousFrameInitialValue →
      ((s.frame link input.1).slow || (s.frame link input.1).frozen ||
        (s.frame link input.1).delayed) = true →
      ∀ since ∈ s.runningSince, since ≤ s.tracker.previousFrameSystemTimestamp
  | _ => True

structure Inv : Prop where
  correct : s.Correct
  running : s.tracker.isRunning = s.runningSince.isSome
  recorded : ∀ frame ∈ s.recorded, frame.endSystemTimestamp ≤ s.systemTime
  periods : ∀ period ∈ s.periods, period.2 ≤ s.systemTime

theorem Inv.init (keepDelayedFramesDuration : ℚ) (systemTime : Nat) :
    (init keepDelayedFramesDuration systemTime).Inv where
  correct := List.forall_mem_nil _
  running := rfl
  recorded := List.forall_mem_nil _
  periods := List.forall_mem_nil _

section Steps
variable {s} {s' : FramesRun} {systemTime : Nat} {call : Call}

theorem step_cases (hstep : s.step (systemTime, call) = some s') :
    s.systemTime < systemTime ∧ ∃ tracker, s.react systemTime call = some tracker ∧ s' = {
      tracker := tracker
      systemTime := systemTime
      runningSince :=
        if tracker.isRunning then some (s.runningSince.getD systemTime) else none
      periods :=
        if tracker.isRunning then s.periods
        else s.periods ++ s.runningSince.toList.map fun since => (since, systemTime)
      recorded := s.recorded ++ s.newFrames systemTime call } := by
  unfold step at hstep
  dsimp only at hstep
  split at hstep
  · cases hstep
  · rename_i htime
    obtain ⟨tracker, htracker, rfl⟩ := Option.map_eq_some_iff.mp hstep
    exact ⟨not_le.mp htime, tracker, htracker, rfl⟩

theorem mem_newFrames {frame : RecordedFrame} (h : frame ∈ s.newFrames systemTime call) :
    ∃ link, call = .displayLinkCallback link ∧ frame = s.frame link systemTime ∧
      s.tracker.previousFrameTimestamp ≠ SentryPreviousFrameInitialValue ∧
      (frame.slow || frame.frozen || frame.delayed) = true := by
  cases call with
  | displayLinkCallback link =>
    unfold newFrames at h
    dsimp only at h
    split at h
    · cases h
    · rename_i hprevious
      obtain ⟨hmem, hlong⟩ := List.mem_filter.mp h
      exact ⟨link, rfl, List.mem_singleton.mp hmem, hprevious, hlong⟩
  | _ => cases h

/-- The tracker goes on running through a frame. -/
theorem isRunning_displayLinkCallback {link : DisplayLink} {tracker : SentryFramesTracker}
    (hreact : s.react systemTime (.displayLinkCallback link) = some tracker) :
    s.tracker.isRunning = true ∧ tracker.isRunning = true := by
  unfold react at hreact
  dsimp only at hreact
  split at hreact
  · rename_i hrunning
    cases hreact
    refine ⟨hrunning, ?_⟩
    unfold SentryFramesTracker.displayLinkCallback
    dsimp only
    split <;> exact hrunning
  · cases hreact

/-- A period that goes on or ends keeps the frames that are in it. -/
theorem Inv.inside_after (inv : s.Inv) (htime : s.systemTime < systemTime)
    {frame : RecordedFrame} (hframe : frame ∈ s.recorded) (tracker : SentryFramesTracker)
    (recorded : List RecordedFrame) : Inside {
      tracker := tracker
      systemTime := systemTime
      runningSince :=
        if tracker.isRunning then some (s.runningSince.getD systemTime) else none
      periods :=
        if tracker.isRunning then s.periods
        else s.periods ++ s.runningSince.toList.map fun since => (since, systemTime)
      recorded := recorded } frame := by
  have hend := inv.recorded frame hframe
  unfold Inside
  dsimp only
  rcases inv.correct frame hframe with ⟨period, hperiod, hinside⟩ | ⟨since, hsince, hstart⟩
  · refine Or.inl ⟨period, ?_, hinside⟩
    split
    · exact hperiod
    · exact List.mem_append_left _ hperiod
  · rw [Option.mem_def.mp hsince]
    by_cases hrunning : tracker.isRunning = true
    · simp only [if_pos hrunning]
      exact Or.inr ⟨since, rfl, hstart⟩
    · simp only [if_neg hrunning]
      refine Or.inl ⟨(since, systemTime), List.mem_append_right _ (List.mem_singleton_self _),
        hstart, ?_⟩
      dsimp only
      omega

theorem Inv.step (inv : s.Inv) (inTime : s.InTime (systemTime, call))
    (hstep : s.step (systemTime, call) = some s') : s'.Inv := by
  obtain ⟨htime, tracker, hreact, rfl⟩ := step_cases hstep
  refine ⟨?_, ?_, ?_, ?_⟩
  · refine List.forall_mem_append.mpr ⟨fun frame hframe =>
      inv.inside_after htime hframe tracker _, fun frame hframe => ?_⟩
    obtain ⟨link, rfl, rfl, hprevious, hlong⟩ := mem_newFrames hframe
    obtain ⟨hbefore, hafter⟩ := isRunning_displayLinkCallback hreact
    rw [inv.running] at hbefore
    obtain ⟨since, hsince⟩ := Option.isSome_iff_exists.mp hbefore
    have hstart := inTime hprevious hlong since hsince
    unfold Inside
    dsimp only
    simp only [if_pos hafter, hsince]
    exact Or.inr ⟨since, rfl, hstart⟩
  · dsimp only
    split
    · rename_i hrunning
      exact hrunning
    · rename_i hrunning
      exact Bool.eq_false_iff.mpr hrunning
  · refine List.forall_mem_append.mpr ⟨fun frame hframe => ?_, fun frame hframe => ?_⟩
    · have hend := inv.recorded frame hframe
      dsimp only
      omega
    · obtain ⟨link, -, rfl, -, -⟩ := mem_newFrames hframe
      exact Nat.le_refl _
  · have hold : ∀ period ∈ s.periods, period.2 ≤ systemTime := fun period hperiod =>
      (inv.periods period hperiod).trans htime.le
    dsimp only
    split
    · exact hold
    · refine List.forall_mem_append.mpr ⟨hold, fun period hperiod => ?_⟩
      obtain ⟨since, -, rfl⟩ := List.mem_map.mp hperiod
      exact Nat.le_refl _

/-- A frame that began before the current period lies in none. -/
theorem Inv.not_correct_step (inv : s.Inv) (late : ¬ s.InTime (systemTime, call))
    (hstep : s.step (systemTime, call) = some s') : ¬ s'.Correct := by
  obtain ⟨htime, tracker, hreact, rfl⟩ := step_cases hstep
  cases call with
  | displayLinkCallback link =>
    unfold InTime at late
    dsimp only at late
    push Not at late
    obtain ⟨hprevious, hlong, since, hsince, hlate⟩ := late
    obtain ⟨-, hafter⟩ := isRunning_displayLinkCallback hreact
    intro correct
    have hmem : s.frame link systemTime ∈
        s.newFrames systemTime (.displayLinkCallback link) := by
      unfold newFrames
      dsimp only
      rw [if_neg hprevious]
      exact List.mem_filter.mpr ⟨List.mem_singleton_self _, hlong⟩
    have hinside := correct _ (List.mem_append_right _ hmem)
    unfold Inside at hinside
    dsimp only at hinside
    simp only [if_pos hafter, Option.mem_def.mp hsince] at hinside
    rcases hinside with ⟨period, hperiod, -, hend⟩ | ⟨other, hother, hstart⟩
    · have hclosed := inv.periods period hperiod
      change systemTime ≤ period.2 at hend
      omega
    · cases hother
      change since ≤ s.tracker.previousFrameSystemTimestamp at hstart
      omega
  | _ => exact absurd trivial late

end Steps

/-! What the tracker has of the recorded frames. -/

/-- The counters, which are unsigned ints, and the delayed frames, some of which are removed. -/
structure Logged (s : FramesRun) : Prop where
  slow : s.tracker.slowFrames = s.recorded.countP RecordedFrame.slow % 2 ^ 32
  frozen : s.tracker.frozenFrames = s.recorded.countP RecordedFrame.frozen % 2 ^ 32
  delayed : ∀ frame ∈ s.tracker.delayedFramesTracker.delayedFrames, frame.actualDuration = 0 ∨
    ∃ recorded ∈ s.recorded, recorded.delayed = true ∧
      recorded.startSystemTimestamp = frame.startSystemTimestamp

/-- The counters stay, and the delayed frames stay or are reset. -/
def Leaves (tracker tracker' : SentryFramesTracker) : Prop :=
  tracker'.slowFrames = tracker.slowFrames ∧ tracker'.frozenFrames = tracker.frozenFrames ∧
    ∀ frame ∈ tracker'.delayedFramesTracker.delayedFrames, frame.actualDuration = 0 ∨
      frame ∈ tracker.delayedFramesTracker.delayedFrames

theorem Leaves.refl (tracker : SentryFramesTracker) : Leaves tracker tracker :=
  ⟨rfl, rfl, fun _ hframe => Or.inr hframe⟩

theorem leaves_unpause (tracker : SentryFramesTracker) : Leaves tracker tracker.unpause := by
  unfold SentryFramesTracker.unpause
  split <;> exact Leaves.refl tracker

theorem leaves_of_react {s : FramesRun} {systemTime : Nat} {call : Call}
    {tracker : SentryFramesTracker} (hreact : s.react systemTime call = some tracker)
    (hcall : ∀ link, call ≠ .displayLinkCallback link) : Leaves s.tracker tracker := by
  cases call with
  | displayLinkCallback link => exact absurd rfl (hcall link)
  | start =>
    cases hreact
    unfold SentryFramesTracker.start
    split
    · exact Leaves.refl _
    · exact leaves_unpause { s.tracker with isStarted := true }
  | stop =>
    cases hreact
    unfold SentryFramesTracker.stop
    split
    · refine ⟨rfl, rfl, List.forall_mem_singleton.mpr (Or.inl rfl)⟩
    · exact Leaves.refl _
  | didBecomeActive =>
    cases hreact
    unfold SentryFramesTracker.didBecomeActive
    split
    · exact leaves_unpause s.tracker
    · exact Leaves.refl _
  | willResignActive =>
    cases hreact
    unfold SentryFramesTracker.willResignActive
    split <;> exact Leaves.refl _
  | pause | resetProfilingTimestamps =>
    cases hreact
    exact Leaves.refl s.tracker
  | unpause =>
    cases hreact
    exact leaves_unpause s.tracker

theorem countP_filter_of_imp {frames : List RecordedFrame} {kind long : RecordedFrame → Bool}
    (h : ∀ frame, kind frame = true → long frame = true) :
    (frames.filter long).countP kind = frames.countP kind := by
  rw [List.countP_filter]
  congr 1
  funext frame
  cases hkind : kind frame with
  | false => rfl
  | true => rw [h frame hkind, Bool.and_self]

/-- A frame that is not the first adds to the counters and to the delayed frames. -/
theorem Logged.displayLinkCallback {s : FramesRun} (logged : s.Logged) (link : DisplayLink)
    (systemTime : Nat) (runningSince : Option Nat) (periods : List (Nat × Nat)) : Logged {
      tracker := s.tracker.displayLinkCallback link systemTime
      systemTime := systemTime
      runningSince := runningSince
      periods := periods
      recorded := s.recorded ++ s.newFrames systemTime (.displayLinkCallback link) } := by
  unfold newFrames SentryFramesTracker.displayLinkCallback
  dsimp only
  split
  · rw [List.append_nil]
    exact ⟨logged.slow, logged.frozen, logged.delayed⟩
  · refine ⟨?_, ?_, ?_⟩
    · dsimp only
      rw [List.countP_append, countP_filter_of_imp (by intro frame h; simp [h]),
        List.countP_singleton, logged.slow]
      unfold frame
      dsimp only
      split <;> omega
    · dsimp only
      rw [List.countP_append, countP_filter_of_imp (by intro frame h; simp [h]),
        List.countP_singleton, logged.frozen]
      unfold frame
      dsimp only
      split <;> omega
    · have hold : ∀ frame ∈ s.tracker.delayedFramesTracker.delayedFrames,
          frame.actualDuration = 0 ∨ ∃ recorded ∈ s.recorded ++ [s.frame link systemTime].filter
            (fun frame => frame.slow || frame.frozen || frame.delayed),
            recorded.delayed = true ∧
              recorded.startSystemTimestamp = frame.startSystemTimestamp := by
        intro frame hframe
        rcases logged.delayed frame hframe with hempty | ⟨recorded, hrecorded, hsame⟩
        · exact Or.inl hempty
        · exact Or.inr ⟨recorded, List.mem_append_left _ hrecorded, hsame⟩
      dsimp only
      split
      · rename_i hdelayed
        refine List.forall_mem_append.mpr ⟨fun frame hframe =>
          hold frame (List.mem_of_mem_drop hframe), List.forall_mem_singleton.mpr (Or.inr ?_)⟩
        have hnew : (s.frame link systemTime).delayed = true := hdelayed
        refine ⟨s.frame link systemTime, List.mem_append_right _ (List.mem_filter.mpr
          ⟨List.mem_singleton_self _, ?_⟩), hnew, rfl⟩
        rw [hnew, Bool.or_true]
      · exact hold

theorem Logged.step {s s' : FramesRun} (logged : s.Logged) {input : Nat × Call}
    (hstep : s.step input = some s') : s'.Logged := by
  obtain ⟨systemTime, call⟩ := input
  obtain ⟨-, tracker, hreact, rfl⟩ := step_cases hstep
  by_cases hcall : ∃ link, call = .displayLinkCallback link
  · obtain ⟨link, rfl⟩ := hcall
    unfold react at hreact
    dsimp only at hreact
    split at hreact
    · cases hreact
      exact logged.displayLinkCallback link systemTime _ _
    · cases hreact
  · have hnone : s.newFrames systemTime call = [] := by
      cases call with
      | displayLinkCallback link => exact absurd ⟨link, rfl⟩ hcall
      | _ => rfl
    obtain ⟨hslow, hfrozen, hdelayed⟩ :=
      leaves_of_react hreact fun link h => hcall ⟨link, h⟩
    rw [hnone, List.append_nil]
    refine ⟨hslow.trans logged.slow, hfrozen.trans logged.frozen, fun frame hframe => ?_⟩
    rcases hdelayed frame hframe with hempty | hmem
    · exact Or.inl hempty
    · exact logged.delayed frame hmem

/-- In every run the tracker counts the recorded frames and keeps delays of no others. -/
theorem always_logged (keepDelayedFramesDuration : ℚ) (systemTime : Nat)
    (inputs : List (Nat × Call)) :
    Always step Logged (init keepDelayedFramesDuration systemTime) inputs :=
  always_of_invariant (fun _ logged => logged) (fun _ _ _ logged hstep => logged.step hstep)
    ⟨rfl, rfl, List.forall_mem_singleton.mpr (Or.inl rfl)⟩ inputs

/-- A frame at the time in seconds of a display of 60 frames a second. -/
def exampleFrame (time : Nat) : Nat × Call :=
  (time * 10 ^ 9, .displayLinkCallback ⟨time, time + 1 / 60, time, false, false⟩)

end FramesRun

end SentryCocoa.FramesTracker
