import SentryCocoa.Library.Machine
import Mathlib.Algebra.Order.Ring.Rat
import Mathlib.Data.List.SplitBy

/-! A session replay that records the full session: screenshots become frames, and every few
seconds the frames become the video of a segment. Frames are added, taken for a video and released
on one queue; the blocks that make videos run one after the other on another one. Times are
seconds; images can be read and videos be written. -/
namespace SentryCocoa.SessionReplay
open SentryCocoa.Library.Machine

/-! `SentryOnDemandReplay`. -/

structure SentryReplayFrame where
  time : ℚ
  /-- The size of the image at the path. -/
  imageSize : Nat × Nat
  screenName : Option String
  deriving DecidableEq

structure SentryVideoInfo where
  /-- The frames that the file shows. -/
  usedFrames : List SentryReplayFrame
  duration : ℚ
  start : ℚ
  «end» : ℚ
  deriving DecidableEq

structure SentryOnDemandReplay where
  frames : List SentryReplayFrame
  frameRate : Nat
  cacheMaxSize : Nat

namespace SentryOnDemandReplay
variable (maker : SentryOnDemandReplay)

/-- The oldest frames go when there are too many. -/
def addFrame (frame : SentryReplayFrame) : SentryOnDemandReplay :=
  let frames := maker.frames ++ [frame]
  { maker with frames := frames.drop (frames.length - maker.cacheMaxSize) }

def releaseFramesUntil (date : ℚ) : SentryOnDemandReplay :=
  { maker with frames := maker.frames.dropWhile fun frame => frame.time < date }

def filterFrames (beginning «end» : ℚ) : List SentryReplayFrame :=
  maker.frames.filter fun frame => beginning ≤ frame.time ∧ frame.time ≤ «end»

/-- The duration is a quotient of integers. -/
def finishVideo (usedFrames : List SentryReplayFrame) : Option SentryVideoInfo :=
  (usedFrames.map SentryReplayFrame.time).min?.map fun start =>
    let duration : ℚ := (usedFrames.length / maker.frameRate : Nat)
    { usedFrames := usedFrames
      duration := duration
      start := start
      «end» := start + duration }

/-- A video ends where the size of the image changes, and the next one begins. -/
def createVideoWith (videoFrames : List SentryReplayFrame) : List SentryVideoInfo :=
  (videoFrames.splitBy fun frame next => frame.imageSize == next.imageSize).filterMap
    maker.finishVideo

end SentryOnDemandReplay

/-! `SentrySessionReplay`. -/

def sessionSegmentDuration : ℚ := 5

def maximumDuration : ℚ := 3600

/-- What the delegate gets. -/
structure Segment where
  segmentId : Nat
  video : SentryVideoInfo
  deriving DecidableEq

/-- The queue of the video maker. -/
inductive WorkBlock where
  | addFrame (imageSize : Nat × Nat) (screen : Option String)
  | releaseFramesUntil (date : ℚ)
  | filterFrames (beginning «end» : ℚ)
  deriving DecidableEq

/-- The block of `createAndCapture` that runs. -/
inductive Creation where
  | idle
  | filtering
  /-- The videos that are not announced yet. -/
  | announcing (videos : List SentryVideoInfo)

structure SentrySessionReplay where
  frameRate : Nat
  replayMaker : SentryOnDemandReplay
  isRunning : Bool
  lastScreenShot : ℚ
  videoSegmentStart : Option ℚ
  sessionStart : ℚ
  currentSegmentId : Nat
  processingScreenshot : Bool
  reachedMaximumDuration : Bool
  isSessionPaused : Bool
  /-- The starts of the segments that are to be created. -/
  captures : List ℚ
  creation : Creation
  workingQueue : List WorkBlock
  date : ℚ
  segments : List Segment
  /-- Every frame that there has been. -/
  captured : List SentryReplayFrame

namespace SentrySessionReplay

/-- The frame rates, the size of the cache and the date. -/
def start (frameRate makerFrameRate cacheMaxSize : Nat) (date : ℚ) : SentrySessionReplay where
  frameRate := frameRate
  replayMaker := ⟨[], makerFrameRate, cacheMaxSize⟩
  isRunning := true
  lastScreenShot := date
  videoSegmentStart := none
  sessionStart := date
  currentSegmentId := 0
  processingScreenshot := false
  reachedMaximumDuration := false
  isSessionPaused := false
  captures := []
  creation := .idle
  workingQueue := []
  date := date
  segments := []
  captured := []

variable (s : SentrySessionReplay)

def createAndCapture (startedAt : ℚ) : SentrySessionReplay :=
  { s with captures := s.captures ++ [startedAt] }

def prepareSegmentUntil : SentrySessionReplay :=
  s.createAndCapture (s.videoSegmentStart.getD (s.date - sessionSegmentDuration))

def pauseSessionMode : SentrySessionReplay :=
  { s with isSessionPaused := true, videoSegmentStart := none }

def pause : SentrySessionReplay :=
  { { s with isRunning := false }.prepareSegmentUntil with isSessionPaused := false }

def resume : SentrySessionReplay :=
  if s.isSessionPaused then { s with isSessionPaused := false }
  else if s.reachedMaximumDuration || s.isRunning then s
  else { s with videoSegmentStart := none, isRunning := true }

def takeScreenshot : SentrySessionReplay :=
  if s.processingScreenshot then s else { s with processingScreenshot := true }

/-- The time between two frames is a quotient of integers. -/
def newFrame : SentrySessionReplay :=
  if !s.isRunning || s.isSessionPaused then s
  else if s.date - s.sessionStart > maximumDuration then
    { s with reachedMaximumDuration := true }.pause
  else if s.date - s.lastScreenShot ≥ (1 / s.frameRate : Nat) then
    let s := { s.takeScreenshot with lastScreenShot := s.date }
    match s.videoSegmentStart with
    | none => { s with videoSegmentStart := some s.date }
    | some videoSegmentStart =>
      if s.date - videoSegmentStart ≥ sessionSegmentDuration then s.prepareSegmentUntil else s
  else s

/-- The screenshot is there. -/
def newImage (imageSize : Nat × Nat) (screen : Option String) : SentrySessionReplay :=
  { s with
    processingScreenshot := false
    workingQueue := s.workingQueue ++ [.addFrame imageSize screen] }

/-- The next block of `createAndCapture` asks for the frames. -/
def createVideo : Option SentrySessionReplay :=
  match s.creation, s.captures with
  | .idle, startedAt :: captures => some { s with
      captures := captures
      creation := .filtering
      workingQueue := s.workingQueue ++ [.filterFrames startedAt s.date] }
  | _, _ => none

/-- The next block of the video maker. The date of a frame is that of its block; frames have
ascending times. -/
def work : Option SentrySessionReplay :=
  match s.workingQueue with
  | [] => none
  | block :: workingQueue =>
    let s := { s with workingQueue := workingQueue }
    match block with
    | .addFrame imageSize screen =>
      if s.captured.all fun frame => frame.time < s.date then
        let frame := ⟨s.date, imageSize, screen⟩
        some { s with
          replayMaker := s.replayMaker.addFrame frame
          captured := s.captured ++ [frame] }
      else none
    | .releaseFramesUntil date =>
      some { s with replayMaker := s.replayMaker.releaseFramesUntil date }
    | .filterFrames beginning «end» =>
      let videos := s.replayMaker.createVideoWith (s.replayMaker.filterFrames beginning «end»)
      some { s with creation := .announcing videos }

/-- The block of `createAndCapture` announces its next video, or ends. -/
def newSegmentAvailable : Option SentrySessionReplay :=
  match s.creation with
  | .announcing [] => some { s with creation := .idle }
  | .announcing (videoInfo :: videos) => some { s with
      segments := s.segments ++ [⟨s.currentSegmentId, videoInfo⟩]
      workingQueue := s.workingQueue ++ [.releaseFramesUntil videoInfo.end]
      videoSegmentStart := some videoInfo.end
      currentSegmentId := s.currentSegmentId + 1
      creation := .announcing videos }
  | _ => none

end SentrySessionReplay

inductive Call where
  | newFrame
  | newImage (imageSize : Nat × Nat) (screen : Option String)
  | pause
  | resume
  | pauseSessionMode
  | createVideo
  | work
  | newSegmentAvailable

namespace SentrySessionReplay

/-- What happens next, and when. The clock does not go back. -/
def step (s : SentrySessionReplay) : ℚ × Call → Option SentrySessionReplay
  | (date, call) =>
    if date < s.date then none
    else
      let s := { s with date := date }
      match call with
      | .newFrame => some s.newFrame
      | .newImage imageSize screen =>
        if s.processingScreenshot then some (s.newImage imageSize screen) else none
      | .pause => some s.pause
      | .resume => some s.resume
      | .pauseSessionMode => some s.pauseSessionMode
      | .createVideo => s.createVideo
      | .work => s.work
      | .newSegmentAvailable => s.newSegmentAvailable

end SentrySessionReplay

end SentryCocoa.SessionReplay
