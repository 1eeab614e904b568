import SentryCocoa.Library.Machine
import Mathlib.Algebra.Order.Ring.Rat
import Mathlib.Data.List.Sort

/-! The touches of a session replay. They are recorded by the uptime of the device and reported
with the dates of the segments; dates and uptime advance together. -/
namespace SentryCocoa.TouchTracker
open SentryCocoa.Library.Machine

structure CGPoint where
  x : ℚ
  y : ℚ
  deriving DecidableEq

inductive UITouchPhase where
  | began | moved | stationary | ended | cancelled | other
  deriving DecidableEq

inductive TouchEventPhase where
  | unknown | start | move | «end»
  deriving DecidableEq

def UITouchPhase.toRRWebTouchPhase : UITouchPhase → TouchEventPhase
  | .began => .start
  | .ended | .cancelled => .end
  | _ => .unknown

structure TouchEvent where
  point : CGPoint
  timestamp : ℚ
  phase : TouchEventPhase
  deriving DecidableEq

/-- The touch is the key in the table of touches. -/
structure TouchInfo where
  touch : Nat
  id : Nat
  startEvent : Option TouchEvent
  endEvent : Option TouchEvent
  moveEvents : List TouchEvent
  deriving DecidableEq

inductive SentryRRWebEvent where
  | touch (timestamp : ℚ) (touchId : Nat) (point : CGPoint) (phase : TouchEventPhase)
  | move (timestamp : ℚ) (touchId : Nat) (positions : List (CGPoint × ℚ))
  deriving DecidableEq

def SentryRRWebEvent.timestamp : SentryRRWebEvent → ℚ
  | .touch timestamp _ _ _ => timestamp
  | .move timestamp _ _ => timestamp

structure SentryTouchTracker where
  trackedTouches : List TouchInfo
  touchId : Nat
  scale : ℚ
  /-- A function of the angles of three points. -/
  arePointsCollinearSameDirection : CGPoint → CGPoint → CGPoint → Bool

/-- The square of the distance. -/
def touchesDelta (lastTouch newTouch : CGPoint) : ℚ :=
  (newTouch.x - lastTouch.x) ^ 2 + (newTouch.y - lastTouch.y) ^ 2

namespace TouchInfo

def event (info : TouchInfo) : TouchEventPhase → Option TouchEvent
  | .start => info.startEvent
  | .end => info.endEvent
  | _ => none

end TouchInfo

namespace SentryTouchTracker
variable (tracker : SentryTouchTracker)

/-- The middle one of the last three points goes when they are in a line. -/
def debounceEvents (moveEvents : List TouchEvent) : List TouchEvent :=
  match moveEvents.reverse with
  | last :: middle :: first :: earlier =>
    if last.timestamp - middle.timestamp > 1 / 2 then moveEvents
    else if tracker.arePointsCollinearSameDirection first.point middle.point last.point then
      (last :: first :: earlier).reverse
    else moveEvents
  | _ => moveEvents

/-- The touch with the new event; none when nothing is recorded. -/
def record (info : TouchInfo) (newEvent : TouchEvent) : UITouchPhase → Option TouchInfo
  | .began => some { info with startEvent := some newEvent }
  | .ended | .cancelled => some { info with endEvent := some newEvent }
  | .moved =>
    if info.moveEvents.getLast?.any fun last => touchesDelta last.point newEvent.point < 10 ^ 2 then
      none
    else some { info with
      moveEvents := tracker.debounceEvents (info.moveEvents ++ [newEvent]) }
  | _ => none

/-- What is known of a touch, or a new entry. -/
def infoFor (touch : Nat) : TouchInfo :=
  (tracker.trackedTouches.find? fun info => info.touch = touch).getD
    ⟨touch, tracker.touchId, none, none, []⟩

/-- One of the touches of an event. -/
def trackTouch (timestamp : ℚ) (touch : Nat) (phase : UITouchPhase) (location : CGPoint) :
    SentryTouchTracker :=
  let position : CGPoint := ⟨location.x * tracker.scale, location.y * tracker.scale⟩
  match tracker.record (tracker.infoFor touch) ⟨position, timestamp, phase.toRRWebTouchPhase⟩
    phase with
  | none => tracker
  | some info => { tracker with
      trackedTouches := info :: tracker.trackedTouches.filter fun info => info.touch ≠ touch
      touchId :=
        if tracker.trackedTouches.any fun info => info.touch = touch then tracker.touchId
        else tracker.touchId + 1 }

def trackTouchFrom (timestamp : ℚ) (allTouches : List (Nat × UITouchPhase × CGPoint)) :
    SentryTouchTracker :=
  allTouches.foldl (fun tracker touch =>
    tracker.trackTouch timestamp touch.1 touch.2.1 touch.2.2) tracker

def flushFinishedEvents : SentryTouchTracker :=
  { tracker with trackedTouches := tracker.trackedTouches.filter fun info => info.endEvent.isNone }

/-- The events of a touch between two uptimes. -/
def eventsOf (uptime now startTimeInterval endTimeInterval : ℚ) (info : TouchInfo) :
    List SentryRRWebEvent :=
  let inInterval := fun event : TouchEvent =>
    startTimeInterval ≤ event.timestamp ∧ event.timestamp ≤ endTimeInterval
  let moveEvents := (info.moveEvents.filter fun movement => inInterval movement).map
    fun movement => (movement.point, now + (movement.timestamp - uptime))
  let touchEvent := fun (event : Option TouchEvent) (phase : TouchEventPhase) =>
    (event.toList.filter fun event => inInterval event).map fun event =>
      SentryRRWebEvent.touch (now + (event.timestamp - uptime)) info.id event.point phase
  touchEvent info.startEvent .start ++
    (moveEvents.getLast?.toList.map fun lastMovement =>
      SentryRRWebEvent.move lastMovement.2 info.id moveEvents) ++
    touchEvent info.endEvent .end

def replayEvents (uptime now «from» «until» : ℚ) : List SentryRRWebEvent :=
  let startTimeInterval := uptime - (now - «from»)
  let endTimeInterval := uptime - (now - «until»)
  (tracker.trackedTouches.flatMap (eventsOf uptime now startTimeInterval endTimeInterval)).insertionSort
    fun event later => event.timestamp ≤ later.timestamp

end SentryTouchTracker

end SentryCocoa.TouchTracker
