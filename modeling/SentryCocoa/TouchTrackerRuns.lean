import SentryCocoa.TouchTracker
import Mathlib.Tactic.Linarith
import Mathlib.Tactic.Ring

/-! Touches and segments. The starts and ends of touches are recorded while segments are captured
one after the other; after each segment the touches that have ended are forgotten. -/
namespace SentryCocoa.TouchTracker
open SentryCocoa.Library.Machine

/-- A start or an end of a touch. -/
structure RecordedEvent where
  touchId : Nat
  phase : TouchEventPhase
  timestamp : ℚ
  deriving DecidableEq

structure Segment where
  «from» : ℚ
  «until» : ℚ
  events : List SentryRRWebEvent

/-- The dates are the uptimes and the date of the boot. -/
structure Recording where
  tracker : SentryTouchTracker
  boot : ℚ
  segments : List Segment
  /-- A segment has been captured, the events are not flushed yet. -/
  flushing : Bool
  recorded : List RecordedEvent

inductive Call where
  | trackTouch (timestamp : ℚ) (touch : Nat) (phase : UITouchPhase) (location : CGPoint)
  | captureSegment (uptime «from» «until» : ℚ)
  | flushFinishedEvents

/-- A start or an end is recorded, no movement. -/
def UITouchPhase.isRecorded : UITouchPhase → Bool
  | .began | .ended | .cancelled => true
  | _ => false

namespace Recording

def start (boot scale : ℚ) (arePointsCollinearSameDirection : CGPoint → CGPoint → CGPoint → Bool) :
    Recording where
  tracker := ⟨[], 1, scale, arePointsCollinearSameDirection⟩
  boot := boot
  segments := []
  flushing := false
  recorded := []

/-- The event that a touch records. -/
def newEvent (s : Recording) (timestamp : ℚ) (touch : Nat) (phase : UITouchPhase) :
    RecordedEvent :=
  ⟨(s.tracker.infoFor touch).id, phase.toRRWebTouchPhase, timestamp⟩

/-- A segment begins where the one before it ends. -/
def step (s : Recording) : Call → Option Recording
  | .trackTouch timestamp touch phase location => some { s with
      tracker := s.tracker.trackTouch timestamp touch phase location
      recorded :=
        if phase.isRecorded then s.recorded ++ [s.newEvent timestamp touch phase]
        else s.recorded }
  | .captureSegment uptime «from» «until» =>
    if s.flushing || «until» < «from» ||
        (s.segments.getLast?.any fun segment => segment.until ≠ «from») then none
    else some { s with
      segments := s.segments ++
        [⟨«from», «until», s.tracker.replayEvents uptime (s.boot + uptime) «from» «until»⟩]
      flushing := true }
  | .flushFinishedEvents =>
    if s.flushing then
      some { s with tracker := s.tracker.flushFinishedEvents, flushing := false }
    else none

/-! What has to hold. -/

def date (s : Recording) (event : RecordedEvent) : ℚ := s.boot + event.timestamp

def isReport (date : ℚ) (event : RecordedEvent) : SentryRRWebEvent → Bool
  | .touch timestamp touchId _ phase =>
    timestamp = date ∧ touchId = event.touchId ∧ phase = event.phase
  | .move _ _ _ => false

def reportedIn (s : Recording) (event : RecordedEvent) (segment : Segment) : Bool :=
  segment.events.any (isReport (s.date event) event)

/-- The number of the segments that report the event. -/
def reports (s : Recording) (event : RecordedEvent) : Nat :=
  s.segments.countP (s.reportedIn event)

def Tracked (tracker : SentryTouchTracker) (event : RecordedEvent) : Prop :=
  ∃ info ∈ tracker.trackedTouches, info.id = event.touchId ∧
    (info.event event.phase).map TouchEvent.timestamp = some event.timestamp

/-- The event is in the time of the segments. -/
def Covered (s : Recording) (event : RecordedEvent) : Prop :=
  ∃ first ∈ s.segments.head?, ∃ last ∈ s.segments.getLast?,
    first.from ≤ s.date event ∧ s.date event < last.until

structure Correct (s : Recording) : Prop where
  covered : ∀ event ∈ s.recorded, s.Covered event → s.reports event = 1
  once : ∀ event ∈ s.recorded, s.reports event ≤ 1
  inside : ∀ event ∈ s.recorded, ∀ segment ∈ s.segments, s.reportedIn event segment = true →
    segment.from ≤ s.date event ∧ s.date event ≤ segment.until
  kept : ∀ event ∈ s.recorded, Tracked s.tracker event ∨ 1 ≤ s.reports event

/-! The condition. -/

/-- An event comes before its time is covered, and replaces none that is not reported. A segment
reports nothing that was reported before. What a flush forgets was reported. -/
def InTime (s : Recording) : Call → Prop
  | .trackTouch timestamp touch phase _ => phase.isRecorded = true →
    (s.Covered (s.newEvent timestamp touch phase) →
      s.reports (s.newEvent timestamp touch phase) = 1) ∧
    ∀ event ∈ (s.tracker.infoFor touch).event phase.toRRWebTouchPhase,
      event.timestamp = timestamp ∨ 1 ≤ s.reports (s.newEvent event.timestamp touch phase)
  | .captureSegment _ «from» «until» => ∀ event, Tracked s.tracker event →
    «from» ≤ s.date event → s.date event ≤ «until» → s.reports event = 0
  | .flushFinishedEvents => ∀ info ∈ s.tracker.trackedTouches, info.endEvent.isSome →
    ∀ phase, ∀ event ∈ info.event phase, 1 ≤ s.reports ⟨info.id, phase, event.timestamp⟩

/-! What a segment reports. -/

theorem touchEvent_reports {boot uptime startTimeInterval endTimeInterval : ℚ} {info : TouchInfo}
    {touch : Option TouchEvent} {phase : TouchEventPhase} {event : RecordedEvent} :
    (∃ report ∈ (touch.toList.filter fun touch => startTimeInterval ≤ touch.timestamp ∧
        touch.timestamp ≤ endTimeInterval).map fun touch => SentryRRWebEvent.touch
          (boot + uptime + (touch.timestamp - uptime)) info.id touch.point phase,
      isReport (boot + event.timestamp) event report = true) ↔
    info.id = event.touchId ∧ phase = event.phase ∧
      touch.map TouchEvent.timestamp = some event.timestamp ∧
      startTimeInterval ≤ event.timestamp ∧ event.timestamp ≤ endTimeInterval := by
  cases touch with
  | none => simp
  | some touch =>
    have hdate : boot + uptime + (touch.timestamp - uptime) = boot + touch.timestamp := by ring
    by_cases hinside : startTimeInterval ≤ touch.timestamp ∧ touch.timestamp ≤ endTimeInterval
    · simp only [Option.toList_some, Option.map_some, Option.some.injEq]
      rw [List.filter_cons_of_pos (by simpa using hinside), List.filter_nil]
      simp only [List.map_cons, List.map_nil, List.mem_singleton, exists_eq_left, isReport, hdate,
        decide_eq_true_eq, add_right_inj]
      constructor
      · rintro ⟨htime, hid, hphase⟩
        exact ⟨hid, hphase, htime, htime ▸ hinside⟩
      · rintro ⟨hid, hphase, htime, -⟩
        exact ⟨htime, hid, hphase⟩
    · simp only [Option.toList_some, Option.map_some, Option.some.injEq]
      rw [List.filter_cons_of_neg (by simpa using hinside), List.filter_nil]
      simp only [List.map_nil, List.not_mem_nil, false_and, exists_false, false_iff]
      rintro ⟨-, -, htime, hbounds⟩
      exact hinside (htime ▸ hbounds)

theorem eventsOf_reports {boot uptime startTimeInterval endTimeInterval : ℚ} {info : TouchInfo}
    {event : RecordedEvent} :
    (∃ report ∈ SentryTouchTracker.eventsOf uptime (boot + uptime) startTimeInterval
        endTimeInterval info, isReport (boot + event.timestamp) event report = true) ↔
    info.id = event.touchId ∧
      (info.event event.phase).map TouchEvent.timestamp = some event.timestamp ∧
      startTimeInterval ≤ event.timestamp ∧ event.timestamp ≤ endTimeInterval := by
  unfold SentryTouchTracker.eventsOf
  dsimp only
  simp only [List.mem_append, or_and_right, exists_or, touchEvent_reports]
  have hmove : ∀ moveEvents : List (CGPoint × ℚ), ¬∃ report ∈
      moveEvents.getLast?.toList.map fun last => SentryRRWebEvent.move last.2 info.id moveEvents,
      isReport (boot + event.timestamp) event report = true := by
    rintro moveEvents ⟨report, hreport, his⟩
    obtain ⟨last, -, rfl⟩ := List.mem_map.mp hreport
    cases his
  simp only [hmove, or_false]
  constructor
  · rintro (⟨hid, hphase, hrest⟩ | ⟨hid, hphase, hrest⟩)
    · rw [← hphase]
      exact ⟨hid, hrest⟩
    · rw [← hphase]
      exact ⟨hid, hrest⟩
  · rintro ⟨hid, htime, hbounds⟩
    cases hphase : event.phase with
    | start =>
      rw [hphase] at htime
      exact Or.inl ⟨hid, rfl, htime, hbounds⟩
    | «end» =>
      rw [hphase] at htime
      exact Or.inr ⟨hid, rfl, htime, hbounds⟩
    | unknown =>
      rw [hphase] at htime
      cases htime
    | move =>
      rw [hphase] at htime
      cases htime

/-- A segment reports what is tracked within its bounds. -/
theorem replayEvents_reports (s : Recording) (uptime «from» «until» : ℚ) (event : RecordedEvent) :
    s.reportedIn event
        ⟨«from», «until», s.tracker.replayEvents uptime (s.boot + uptime) «from» «until»⟩ = true ↔
      Tracked s.tracker event ∧ «from» ≤ s.date event ∧ s.date event ≤ «until» := by
  have hfrom : uptime - (s.boot + uptime - «from») ≤ event.timestamp ↔ «from» ≤ s.date event := by
    unfold date
    constructor <;> intro h <;> linarith
  have huntil : event.timestamp ≤ uptime - (s.boot + uptime - «until») ↔
      s.date event ≤ «until» := by
    unfold date
    constructor <;> intro h <;> linarith
  unfold reportedIn SentryTouchTracker.replayEvents
  simp only [List.any_eq_true, List.mem_insertionSort, List.mem_flatMap]
  rw [← hfrom, ← huntil]
  constructor
  · rintro ⟨report, ⟨info, hinfo, hmem⟩, hreport⟩
    obtain ⟨hid, htime, hbounds⟩ := eventsOf_reports.mp ⟨report, hmem, hreport⟩
    exact ⟨⟨info, hinfo, hid, htime⟩, hbounds⟩
  · rintro ⟨⟨info, hinfo, hid, htime⟩, hbounds⟩
    obtain ⟨report, hmem, hreport⟩ := eventsOf_reports.mpr ⟨hid, htime, hbounds⟩
    exact ⟨report, ⟨info, hinfo, hmem⟩, hreport⟩

/-! The table of touches. -/

/-- Each touch has one entry and an identifier of its own. -/
structure Identified (tracker : SentryTouchTracker) : Prop where
  touches : (tracker.trackedTouches.map TouchInfo.touch).Nodup
  ids : (tracker.trackedTouches.map TouchInfo.id).Nodup
  fresh : ∀ info ∈ tracker.trackedTouches, info.id < tracker.touchId

theorem infoFor_cases (tracker : SentryTouchTracker) (touch : Nat) :
    (tracker.infoFor touch ∈ tracker.trackedTouches ∧ (tracker.infoFor touch).touch = touch) ∨
      (tracker.infoFor touch = ⟨touch, tracker.touchId, none, none, []⟩ ∧
        ∀ info ∈ tracker.trackedTouches, info.touch ≠ touch) := by
  unfold SentryTouchTracker.infoFor
  cases hfind : tracker.trackedTouches.find? fun info => info.touch = touch with
  | none =>
    refine Or.inr ⟨rfl, fun info hinfo => ?_⟩
    simpa using List.find?_eq_none.mp hfind info hinfo
  | some info =>
    exact Or.inl ⟨List.mem_of_find?_eq_some hfind, by simpa using List.find?_some hfind⟩

theorem infoFor_touch (tracker : SentryTouchTracker) (touch : Nat) :
    (tracker.infoFor touch).touch = touch := by
  rcases infoFor_cases tracker touch with ⟨-, htouch⟩ | ⟨hnew, -⟩
  · exact htouch
  · rw [hnew]

section Identified
variable {tracker : SentryTouchTracker} (identified : Identified tracker)
include identified

/-- The identifier tells whether an entry is that of the touch. -/
theorem id_eq_infoFor {touch : Nat} {info : TouchInfo} (hinfo : info ∈ tracker.trackedTouches) :
    info.id = (tracker.infoFor touch).id ↔ info.touch = touch := by
  rcases infoFor_cases tracker touch with ⟨hmem, htouch⟩ | ⟨hnew, hother⟩
  · constructor
    · intro hid
      rw [List.inj_on_of_nodup_map identified.ids hinfo hmem hid, htouch]
    · intro hsame
      rw [List.inj_on_of_nodup_map identified.touches hinfo hmem (hsame.trans htouch.symm)]
  · rw [hnew]
    constructor
    · intro hid
      exact absurd hid (identified.fresh info hinfo).ne
    · intro hsame
      exact absurd hsame (hother info hinfo)

theorem tracked_infoFor {touch : Nat} {event : RecordedEvent}
    (hid : event.touchId = (tracker.infoFor touch).id) :
    Tracked tracker event ↔ ((tracker.infoFor touch).event event.phase).map TouchEvent.timestamp =
      some event.timestamp := by
  constructor
  · rintro ⟨info, hinfo, hsame, htime⟩
    have htouch := (id_eq_infoFor identified hinfo).mp (hsame.trans hid)
    rcases infoFor_cases tracker touch with ⟨hmem, hown⟩ | ⟨-, hother⟩
    · rw [← List.inj_on_of_nodup_map identified.touches hinfo hmem (htouch.trans hown.symm)]
      exact htime
    · exact absurd htouch (hother info hinfo)
  · intro htime
    rcases infoFor_cases tracker touch with ⟨hmem, -⟩ | ⟨hnew, -⟩
    · exact ⟨_, hmem, hid.symm, htime⟩
    · rw [hnew] at htime
      cases hphase : event.phase with
      | _ =>
        rw [hphase] at htime
        cases htime

end Identified

/-! One touch. -/

section Record
variable {tracker : SentryTouchTracker} {info recordedInfo : TouchInfo} {newEvent : TouchEvent}
  {phase : UITouchPhase}

theorem record_key (h : tracker.record info newEvent phase = some recordedInfo) :
    recordedInfo.touch = info.touch ∧ recordedInfo.id = info.id := by
  unfold SentryTouchTracker.record at h
  cases phase with
  | began | ended | cancelled =>
    cases h
    exact ⟨rfl, rfl⟩
  | moved =>
    dsimp only at h
    split at h
    · cases h
    · cases h
      exact ⟨rfl, rfl⟩
  | stationary | other => cases h

/-- A movement leaves the start and the end of the touch. -/
theorem record_event_of_not_recorded (hphase : phase.isRecorded = false)
    (h : tracker.record info newEvent phase = some recordedInfo) (asked : TouchEventPhase) :
    recordedInfo.event asked = info.event asked := by
  unfold SentryTouchTracker.record at h
  cases phase with
  | began | ended | cancelled => cases hphase
  | moved =>
    dsimp only at h
    split at h
    · cases h
    · cases h
      cases asked <;> rfl
  | stationary | other => cases h

theorem record_event (hphase : phase.isRecorded = true) : ∃ recordedInfo,
    tracker.record info newEvent phase = some recordedInfo ∧
      recordedInfo.event phase.toRRWebTouchPhase = some newEvent ∧
      ∀ asked, asked ≠ phase.toRRWebTouchPhase →
        recordedInfo.event asked = info.event asked := by
  cases phase with
  | began =>
    refine ⟨_, rfl, rfl, fun asked hasked => ?_⟩
    cases asked with
    | start => exact absurd rfl hasked
    | _ => rfl
  | ended | cancelled =>
    refine ⟨_, rfl, rfl, fun asked hasked => ?_⟩
    cases asked with
    | «end» => exact absurd rfl hasked
    | _ => rfl
  | moved | stationary | other => cases hphase

end Record

section TrackTouch
variable {tracker : SentryTouchTracker} {timestamp : ℚ} {touch : Nat} {phase : UITouchPhase}
  {location : CGPoint}

/-- The position of a touch in the replay. -/
def touchEvent (tracker : SentryTouchTracker) (timestamp : ℚ) (phase : UITouchPhase)
    (location : CGPoint) : TouchEvent :=
  ⟨⟨location.x * tracker.scale, location.y * tracker.scale⟩, timestamp, phase.toRRWebTouchPhase⟩

theorem trackTouch_cases (tracker : SentryTouchTracker) (timestamp : ℚ) (touch : Nat)
    (phase : UITouchPhase) (location : CGPoint) :
    (tracker.record (tracker.infoFor touch) (touchEvent tracker timestamp phase location) phase =
        none ∧ tracker.trackTouch timestamp touch phase location = tracker) ∨
      ∃ info, tracker.record (tracker.infoFor touch)
          (touchEvent tracker timestamp phase location) phase = some info ∧
        (tracker.trackTouch timestamp touch phase location).trackedTouches =
          info :: tracker.trackedTouches.filter (fun info => info.touch ≠ touch) ∧
        (tracker.trackTouch timestamp touch phase location).touchId =
          if tracker.trackedTouches.any fun info => info.touch = touch then tracker.touchId
          else tracker.touchId + 1 := by
  unfold SentryTouchTracker.trackTouch touchEvent
  dsimp only
  split
  · rename_i hrecord
    exact Or.inl ⟨hrecord, rfl⟩
  · rename_i info hrecord
    exact Or.inr ⟨info, hrecord, rfl, rfl⟩

theorem Identified.trackTouch (identified : Identified tracker) :
    Identified (tracker.trackTouch timestamp touch phase location) := by
  rcases trackTouch_cases tracker timestamp touch phase location with
    ⟨-, hsame⟩ | ⟨info, hrecord, htouches, hnext⟩
  · rw [hsame]
    exact identified
  · obtain ⟨htouch, hid⟩ := record_key hrecord
    rw [infoFor_touch] at htouch
    have hlt : info.id < (tracker.trackTouch timestamp touch phase location).touchId ∧
        tracker.touchId ≤ (tracker.trackTouch timestamp touch phase location).touchId := by
      rw [hnext, hid]
      rcases infoFor_cases tracker touch with ⟨hmem, hown⟩ | ⟨hnew, hother⟩
      · have hany : (tracker.trackedTouches.any fun info => info.touch = touch) = true :=
          List.any_eq_true.mpr ⟨_, hmem, by simpa using hown⟩
        rw [if_pos hany]
        exact ⟨identified.fresh _ hmem, Nat.le_refl _⟩
      · have hany : ¬ (tracker.trackedTouches.any fun info => info.touch = touch) = true := by
          intro hany
          obtain ⟨other, hmem, hsame⟩ := List.any_eq_true.mp hany
          exact hother other hmem (of_decide_eq_true hsame)
        rw [if_neg hany, hnew]
        exact ⟨Nat.lt_succ_self _, Nat.le_succ _⟩
    refine ⟨?_, ?_, ?_⟩
    · rw [htouches, List.map_cons, List.nodup_cons]
      refine ⟨fun hmem => ?_, identified.touches.sublist (List.filter_sublist.map _)⟩
      obtain ⟨other, hother, hsame⟩ := List.mem_map.mp hmem
      exact of_decide_eq_true (List.mem_filter.mp hother).2 (hsame.trans htouch)
    · rw [htouches, List.map_cons, List.nodup_cons]
      refine ⟨fun hmem => ?_, identified.ids.sublist (List.filter_sublist.map _)⟩
      obtain ⟨other, hother, hsame⟩ := List.mem_map.mp hmem
      obtain ⟨hmem, hne⟩ := List.mem_filter.mp hother
      exact of_decide_eq_true hne ((id_eq_infoFor identified hmem).mp (hsame.trans hid))
    · intro other hother
      rw [htouches] at hother
      rcases List.mem_cons.mp hother with rfl | hother
      · exact hlt.1
      · exact lt_of_lt_of_le (identified.fresh _ (List.mem_filter.mp hother).1) hlt.2

/-- A touch changes the events of its own entry alone. -/
theorem tracked_trackTouch (identified : Identified tracker) {info : TouchInfo}
    (hrecord : tracker.record (tracker.infoFor touch)
      (touchEvent tracker timestamp phase location) phase = some info) (event : RecordedEvent) :
    Tracked (tracker.trackTouch timestamp touch phase location) event ↔
      if event.touchId = (tracker.infoFor touch).id then
        (info.event event.phase).map TouchEvent.timestamp = some event.timestamp
      else Tracked tracker event := by
  rcases trackTouch_cases tracker timestamp touch phase location with
    ⟨hnone, -⟩ | ⟨info', hsome, htouches, -⟩
  · rw [hrecord] at hnone
    cases hnone
  · rw [hrecord] at hsome
    cases hsome
    have hid := (record_key hrecord).2
    unfold Tracked
    rw [htouches]
    split
    · rename_i hown
      constructor
      · rintro ⟨other, hother, hsame, htime⟩
        rcases List.mem_cons.mp hother with rfl | hother
        · exact htime
        · obtain ⟨hmem, hne⟩ := List.mem_filter.mp hother
          exact absurd ((id_eq_infoFor identified hmem).mp (hsame.trans hown))
            (of_decide_eq_true hne)
      · intro htime
        exact ⟨info, List.mem_cons_self, hid.trans hown.symm, htime⟩
    · rename_i hown
      constructor
      · rintro ⟨other, hother, hsame, htime⟩
        rcases List.mem_cons.mp hother with rfl | hother
        · exact absurd (hsame.symm.trans hid) hown
        · exact ⟨other, (List.mem_filter.mp hother).1, hsame, htime⟩
      · rintro ⟨other, hother, hsame, htime⟩
        refine ⟨other, List.mem_cons_of_mem _ (List.mem_filter.mpr ⟨hother, ?_⟩), hsame, htime⟩
        refine decide_eq_true fun htouch => hown ?_
        rw [← hsame]
        exact (id_eq_infoFor identified hother).mpr htouch

/-- A movement changes nothing that is reported as a start or an end. -/
theorem tracked_trackTouch_of_not_recorded (identified : Identified tracker)
    (hphase : phase.isRecorded = false) (event : RecordedEvent) :
    Tracked (tracker.trackTouch timestamp touch phase location) event ↔ Tracked tracker event := by
  rcases trackTouch_cases tracker timestamp touch phase location with
    ⟨-, hsame⟩ | ⟨info, hrecord, -, -⟩
  · rw [hsame]
  · rw [tracked_trackTouch identified hrecord]
    split
    · rename_i hown
      rw [tracked_infoFor identified hown, record_event_of_not_recorded hphase hrecord]
    · exact Iff.rfl

/-- A start or an end takes the place of the one before it. -/
theorem tracked_trackTouch_of_recorded (identified : Identified tracker)
    (hphase : phase.isRecorded = true) (event : RecordedEvent) :
    Tracked (tracker.trackTouch timestamp touch phase location) event ↔
      if event.touchId = (tracker.infoFor touch).id ∧ event.phase = phase.toRRWebTouchPhase then
        event.timestamp = timestamp
      else Tracked tracker event := by
  have hevent : ∃ info, tracker.record (tracker.infoFor touch)
      (touchEvent tracker timestamp phase location) phase = some info ∧
      info.event phase.toRRWebTouchPhase = some (touchEvent tracker timestamp phase location) ∧
      ∀ asked, asked ≠ phase.toRRWebTouchPhase →
        info.event asked = (tracker.infoFor touch).event asked :=
    record_event hphase
  obtain ⟨info, hrecord, hnew, hold⟩ := hevent
  rw [tracked_trackTouch identified hrecord]
  by_cases hown : event.touchId = (tracker.infoFor touch).id
  · rw [if_pos hown]
    by_cases hsame : event.phase = phase.toRRWebTouchPhase
    · rw [if_pos ⟨hown, hsame⟩, hsame, hnew]
      constructor
      · intro htime
        exact (Option.some.inj htime).symm
      · intro htime
        rw [htime]
        rfl
    · rw [if_neg fun h => hsame h.2, hold _ hsame, tracked_infoFor identified hown]
  · rw [if_neg hown, if_neg fun h => hown h.1]

end TrackTouch

theorem Identified.flushFinishedEvents {tracker : SentryTouchTracker}
    (identified : Identified tracker) : Identified tracker.flushFinishedEvents where
  touches := identified.touches.sublist (List.filter_sublist.map _)
  ids := identified.ids.sublist (List.filter_sublist.map _)
  fresh := fun info hinfo => identified.fresh info (List.mem_filter.mp hinfo).1

/-- A flush forgets the events of the touches that have ended. -/
theorem tracked_flushFinishedEvents (tracker : SentryTouchTracker) (event : RecordedEvent) :
    Tracked tracker.flushFinishedEvents event ↔ ∃ info ∈ tracker.trackedTouches,
      info.endEvent = none ∧ info.id = event.touchId ∧
        (info.event event.phase).map TouchEvent.timestamp = some event.timestamp := by
  unfold Tracked SentryTouchTracker.flushFinishedEvents
  simp only [List.mem_filter, Option.isNone_iff_eq_none, and_assoc]

/-! The invariant. -/

/-- What is in the table or in a segment was recorded. -/
structure Inv (s : Recording) : Prop where
  correct : s.Correct
  identified : Identified s.tracker
  tracked : ∀ event, Tracked s.tracker event → event ∈ s.recorded
  reported : ∀ event, 1 ≤ s.reports event → event ∈ s.recorded

theorem Inv.start (boot scale : ℚ)
    (arePointsCollinearSameDirection : CGPoint → CGPoint → CGPoint → Bool) :
    (start boot scale arePointsCollinearSameDirection).Inv := by
  refine ⟨⟨?_, ?_, ?_, ?_⟩, ⟨List.nodup_nil, List.nodup_nil, ?_⟩, ?_, ?_⟩
  · rintro event ⟨⟩
  · rintro event ⟨⟩
  · rintro event ⟨⟩
  · rintro event ⟨⟩
  · rintro info ⟨⟩
  · rintro event ⟨info, ⟨⟩, -⟩
  · rintro event ⟨⟩

section Steps
variable {s s' : Recording}

theorem Inv.trackTouch_of_not_recorded (inv : s.Inv) {timestamp : ℚ} {touch : Nat}
    {phase : UITouchPhase} (location : CGPoint) (hphase : phase.isRecorded = false) :
    ({ s with tracker := s.tracker.trackTouch timestamp touch phase location } : Recording).Inv := by
  have htracked (event : RecordedEvent) :
      Tracked (s.tracker.trackTouch timestamp touch phase location) event ↔
        Tracked s.tracker event :=
    tracked_trackTouch_of_not_recorded inv.identified hphase event
  refine ⟨⟨inv.correct.covered, inv.correct.once, inv.correct.inside, ?_⟩,
    inv.identified.trackTouch, ?_, inv.reported⟩
  · intro event hevent
    rw [htracked]
    exact inv.correct.kept event hevent
  · intro event hevent
    exact inv.tracked event ((htracked event).mp hevent)

section Recorded
variable {timestamp : ℚ} {touch : Nat} {phase : UITouchPhase} (location : CGPoint)
  (hphase : phase.isRecorded = true)

/-- The state when a start or an end has been recorded. -/
def recordTouch (s : Recording) (timestamp : ℚ) (touch : Nat) (phase : UITouchPhase)
    (location : CGPoint) : Recording :=
  { s with
    tracker := s.tracker.trackTouch timestamp touch phase location
    recorded := s.recorded ++ [s.newEvent timestamp touch phase] }

theorem not_correct_of_covered
    (hcovered : s.Covered (s.newEvent timestamp touch phase))
    (hreports : s.reports (s.newEvent timestamp touch phase) ≠ 1) :
    ¬ (s.recordTouch timestamp touch phase location).Correct := by
  intro correct
  exact hreports (correct.covered _ (List.mem_append_right _ (List.mem_singleton_self _)) hcovered)

include hphase

theorem Inv.recordTouch (inv : s.Inv)
    (hcovered : s.Covered (s.newEvent timestamp touch phase) →
      s.reports (s.newEvent timestamp touch phase) = 1)
    (hreplaced : ∀ event ∈ (s.tracker.infoFor touch).event phase.toRRWebTouchPhase,
      event.timestamp = timestamp ∨ 1 ≤ s.reports (s.newEvent event.timestamp touch phase)) :
    (s.recordTouch timestamp touch phase location).Inv := by
  have htracked (event : RecordedEvent) :
      Tracked (s.recordTouch timestamp touch phase location).tracker event ↔ _ :=
    tracked_trackTouch_of_recorded inv.identified hphase event
  have hnew : 1 ≤ s.reports (s.newEvent timestamp touch phase) →
      s.newEvent timestamp touch phase ∈ s.recorded := inv.reported _
  refine ⟨⟨?_, ?_, ?_, ?_⟩, inv.identified.trackTouch, ?_, ?_⟩
  · exact List.forall_mem_append.mpr
      ⟨inv.correct.covered, List.forall_mem_singleton.mpr hcovered⟩
  · refine List.forall_mem_append.mpr ⟨inv.correct.once, List.forall_mem_singleton.mpr ?_⟩
    by_contra hmany
    have hmany : 1 < s.reports (s.newEvent timestamp touch phase) := not_le.mp hmany
    exact absurd (inv.correct.once _ (hnew hmany.le)) (not_le.mpr hmany)
  · refine List.forall_mem_append.mpr ⟨inv.correct.inside, List.forall_mem_singleton.mpr ?_⟩
    intro segment hsegment hreport
    have hmem := hnew (List.countP_pos_iff.mpr ⟨segment, hsegment, hreport⟩)
    exact inv.correct.inside _ hmem segment hsegment hreport
  · refine List.forall_mem_append.mpr ⟨?_, List.forall_mem_singleton.mpr ?_⟩
    · intro event hevent
      rw [htracked]
      rcases inv.correct.kept event hevent with htrack | hreport
      · split
        · rename_i hsame
          rw [tracked_infoFor inv.identified hsame.1, hsame.2] at htrack
          obtain ⟨old, hold, htime⟩ := Option.map_eq_some_iff.mp htrack
          have hevent : s.newEvent old.timestamp touch phase = event := by
            unfold newEvent
            rw [← hsame.1, ← hsame.2, htime]
          rcases hreplaced old hold with hnow | hreport
          · exact Or.inl (htime.symm.trans hnow)
          · rw [hevent] at hreport
            exact Or.inr hreport
        · exact Or.inl htrack
      · exact Or.inr hreport
    · rw [htracked, if_pos ⟨rfl, rfl⟩]
      exact Or.inl rfl
  · intro event hevent
    rw [htracked] at hevent
    split at hevent
    · rename_i hsame
      have hown : event = s.newEvent timestamp touch phase := by
        unfold newEvent
        rw [← hsame.1, ← hsame.2, ← hevent]
      rw [hown]
      exact List.mem_append_right _ (List.mem_singleton_self _)
    · exact List.mem_append_left _ (inv.tracked event hevent)
  · intro event hevent
    exact List.mem_append_left _ (inv.reported event hevent)

theorem Inv.not_correct_of_replaced (inv : s.Inv) {event : TouchEvent}
    (hevent : event ∈ (s.tracker.infoFor touch).event phase.toRRWebTouchPhase)
    (htime : event.timestamp ≠ timestamp)
    (hreports : s.reports (s.newEvent event.timestamp touch phase) = 0) :
    ¬ (s.recordTouch timestamp touch phase location).Correct := by
  intro correct
  have htracked : Tracked s.tracker (s.newEvent event.timestamp touch phase) := by
    refine (tracked_infoFor inv.identified rfl).mpr ?_
    change ((s.tracker.infoFor touch).event phase.toRRWebTouchPhase).map _ = _
    rw [hevent]
    rfl
  have hrecorded := inv.tracked _ htracked
  rcases correct.kept _ (List.mem_append_left _ hrecorded) with hafter | hafter
  · have hsame := (tracked_trackTouch_of_recorded inv.identified hphase _).mp hafter
    rw [if_pos ⟨rfl, rfl⟩] at hsame
    exact htime hsame
  · change 1 ≤ s.reports _ at hafter
    omega

end Recorded

theorem Inv.trackTouch (inv : s.Inv) {timestamp : ℚ} {touch : Nat} {phase : UITouchPhase}
    {location : CGPoint} (inTime : s.InTime (.trackTouch timestamp touch phase location))
    (hstep : s.step (.trackTouch timestamp touch phase location) = some s') : s'.Inv := by
  unfold step at hstep
  cases hphase : phase.isRecorded with
  | true =>
    obtain ⟨hcovered, hreplaced⟩ := inTime hphase
    simp only [hphase, if_true] at hstep
    cases hstep
    exact inv.recordTouch location hphase hcovered hreplaced
  | false =>
    simp only [hphase, Bool.false_eq_true, if_false] at hstep
    cases hstep
    exact inv.trackTouch_of_not_recorded location hphase

theorem Inv.not_correct_trackTouch (inv : s.Inv) {timestamp : ℚ} {touch : Nat}
    {phase : UITouchPhase} {location : CGPoint}
    (late : ¬ s.InTime (.trackTouch timestamp touch phase location))
    (hstep : s.step (.trackTouch timestamp touch phase location) = some s') : ¬ s'.Correct := by
  unfold InTime at late
  dsimp only at late
  push Not at late
  obtain ⟨hphase, hlate⟩ := late
  unfold step at hstep
  simp only [hphase, if_true] at hstep
  cases hstep
  by_cases hcovered : s.Covered (s.newEvent timestamp touch phase) ∧
      s.reports (s.newEvent timestamp touch phase) ≠ 1
  · exact not_correct_of_covered location hcovered.1 hcovered.2
  · obtain ⟨event, hevent, htime, hreports⟩ := hlate fun hcov => by
      by_contra hne
      exact hcovered ⟨hcov, hne⟩
    exact inv.not_correct_of_replaced location hphase hevent htime (by omega)

/-! A segment. -/

/-- The state when a segment has been captured. -/
def capture (s : Recording) (uptime «from» «until» : ℚ) : Recording :=
  { s with
    segments := s.segments ++
      [⟨«from», «until», s.tracker.replayEvents uptime (s.boot + uptime) «from» «until»⟩]
    flushing := true }

theorem captureSegment_cases {uptime «from» «until» : ℚ}
    (hstep : s.step (.captureSegment uptime «from» «until») = some s') :
    s' = s.capture uptime «from» «until» ∧ «from» ≤ «until» ∧
      ∀ last ∈ s.segments.getLast?, last.until = «from» := by
  unfold step at hstep
  dsimp only at hstep
  split at hstep
  · cases hstep
  · rename_i hguard
    simp only [Bool.or_eq_true, decide_eq_true_eq, not_or, not_lt, Bool.not_eq_true] at hguard
    refine ⟨(Option.some.inj hstep).symm, hguard.1.2, fun last hlast => ?_⟩
    have hany := hguard.2
    rw [hlast] at hany
    simpa using hany

section Capture
variable (uptime : ℚ) {«from» «until» : ℚ}

open Classical in
/-- The new segment reports the tracked events of its time. -/
theorem reports_capture (event : RecordedEvent) :
    (s.capture uptime «from» «until»).reports event = s.reports event +
      if Tracked s.tracker event ∧ «from» ≤ s.date event ∧ s.date event ≤ «until» then 1
      else 0 := by
  have hnew := replayEvents_reports s uptime «from» «until» event
  change (s.segments ++ [_]).countP (s.reportedIn event) = _
  rw [List.countP_append, List.countP_singleton]
  simp only [hnew]
  rfl

/-- What the new segment covers follows what is covered already. -/
theorem covered_capture {event : RecordedEvent}
    (hlast : ∀ last ∈ s.segments.getLast?, last.until = «from»)
    (hcovered : (s.capture uptime «from» «until»).Covered event) :
    s.Covered event ∨ («from» ≤ s.date event ∧ s.date event < «until») := by
  obtain ⟨first, hfirst, last, hend, hfrom, huntil⟩ := hcovered
  change (s.segments ++ [_]).head? = some first at hfirst
  change (s.segments ++ [_]).getLast? = some last at hend
  rw [List.getLast?_concat] at hend
  cases hend
  change s.date event < «until» at huntil
  change first.from ≤ s.date event at hfrom
  cases hsegments : s.segments.getLast? with
  | none =>
    rw [List.getLast?_eq_none_iff.mp hsegments] at hfirst
    cases hfirst
    exact Or.inr ⟨hfrom, huntil⟩
  | some before =>
    rcases lt_or_ge (s.date event) «from» with hearly | hlate
    · refine Or.inl ⟨first, ?_, before, hsegments, hfrom, ?_⟩
      · cases hcases : s.segments with
        | nil =>
          rw [hcases] at hsegments
          cases hsegments
        | cons head rest =>
          rw [hcases] at hfirst
          exact hfirst
      · rw [hlast before hsegments]
        exact hearly
    · exact Or.inr ⟨hlate, huntil⟩

theorem date_lt_of_covered {event : RecordedEvent}
    (hlast : ∀ last ∈ s.segments.getLast?, last.until = «from») (hcovered : s.Covered event) :
    s.date event < «from» := by
  obtain ⟨first, -, last, hend, -, huntil⟩ := hcovered
  rw [← hlast last hend]
  exact huntil

/-- An event is in a segment already or it is tracked, and then it is in no segment yet. -/
theorem Inv.reports_capture_le (inv : s.Inv)
    (inTime : s.InTime (.captureSegment uptime «from» «until»)) {event : RecordedEvent}
    (hevent : event ∈ s.recorded) : (s.capture uptime «from» «until»).reports event ≤ 1 := by
  rw [reports_capture]
  split
  · rename_i hinside
    rw [inTime event hinside.1 hinside.2.1 hinside.2.2]
  · exact inv.correct.once event hevent

theorem Inv.capture (inv : s.Inv) (hlast : ∀ last ∈ s.segments.getLast?, last.until = «from»)
    (inTime : s.InTime (.captureSegment uptime «from» «until»)) :
    (s.capture uptime «from» «until»).Inv := by
  refine ⟨⟨?_, fun event hevent => inv.reports_capture_le uptime inTime hevent, ?_, ?_⟩,
    inv.identified, inv.tracked, ?_⟩
  · intro event hevent hcovered
    have hle := inv.reports_capture_le uptime inTime hevent
    rw [reports_capture] at hle ⊢
    rcases covered_capture uptime hlast hcovered with hbefore | ⟨hfrom, huntil⟩
    · have hearly := date_lt_of_covered hlast hbefore
      rw [if_neg fun h => absurd h.2.1 (not_le.mpr hearly)]
      exact inv.correct.covered event hevent hbefore
    · rcases inv.correct.kept event hevent with htracked | hreport
      · rw [if_pos ⟨htracked, hfrom, huntil.le⟩] at hle ⊢
        omega
      · omega
  · intro event hevent segment hsegment hreport
    rcases List.mem_append.mp hsegment with hsegment | hsegment
    · exact inv.correct.inside event hevent segment hsegment hreport
    · cases List.mem_singleton.mp hsegment
      exact ((replayEvents_reports s uptime «from» «until» event).mp hreport).2
  · intro event hevent
    rw [reports_capture]
    rcases inv.correct.kept event hevent with htracked | hreport
    · exact Or.inl htracked
    · exact Or.inr (by omega)
  · intro event hevent
    rw [reports_capture] at hevent
    split at hevent
    · rename_i hinside
      exact inv.tracked event hinside.1
    · exact inv.reported event hevent

/-- What a segment reports a second time was reported once too often. -/
theorem Inv.not_correct_capture (inv : s.Inv)
    (late : ¬ s.InTime (.captureSegment uptime «from» «until»)) :
    ¬ (s.capture uptime «from» «until»).Correct := by
  unfold InTime at late
  dsimp only at late
  push Not at late
  obtain ⟨event, htracked, hfrom, huntil, hreports⟩ := late
  intro correct
  have hone := correct.once event (inv.tracked event htracked)
  rw [reports_capture, if_pos ⟨htracked, hfrom, huntil⟩] at hone
  omega

end Capture

/-! A flush. -/

theorem flushFinishedEvents_cases (hstep : s.step .flushFinishedEvents = some s') :
    s' = { s with tracker := s.tracker.flushFinishedEvents, flushing := false } := by
  unfold step at hstep
  dsimp only at hstep
  split at hstep
  · exact (Option.some.inj hstep).symm
  · cases hstep

theorem Inv.flushFinishedEvents (inv : s.Inv) (inTime : s.InTime .flushFinishedEvents) :
    ({ s with tracker := s.tracker.flushFinishedEvents, flushing := false } : Recording).Inv := by
  refine ⟨⟨inv.correct.covered, inv.correct.once, inv.correct.inside, ?_⟩,
    inv.identified.flushFinishedEvents, ?_, inv.reported⟩
  · intro event hevent
    rcases inv.correct.kept event hevent with ⟨info, hinfo, hid, htime⟩ | hreport
    · cases hended : info.endEvent with
      | none =>
        exact Or.inl ((tracked_flushFinishedEvents _ _).mpr ⟨info, hinfo, hended, hid, htime⟩)
      | some last =>
        obtain ⟨touch, htouch, hsame⟩ := Option.map_eq_some_iff.mp htime
        have hreport := inTime info hinfo (by rw [hended]; rfl) event.phase touch htouch
        rw [hid, hsame] at hreport
        exact Or.inr hreport
    · exact Or.inr hreport
  · intro event hevent
    obtain ⟨info, hinfo, -, hid, htime⟩ := (tracked_flushFinishedEvents _ _).mp hevent
    exact inv.tracked event ⟨info, hinfo, hid, htime⟩

/-- What a flush forgets without a report is lost. -/
theorem Inv.not_correct_flushFinishedEvents (inv : s.Inv)
    (late : ¬ s.InTime .flushFinishedEvents) :
    ¬ ({ s with tracker := s.tracker.flushFinishedEvents, flushing := false } :
      Recording).Correct := by
  unfold InTime at late
  dsimp only at late
  push Not at late
  obtain ⟨info, hinfo, hended, phase, event, hevent, hreports⟩ := late
  intro correct
  have htracked : Tracked s.tracker ⟨info.id, phase, event.timestamp⟩ := by
    refine ⟨info, hinfo, rfl, ?_⟩
    change (info.event phase).map _ = _
    rw [hevent]
    rfl
  rcases correct.kept _ (inv.tracked _ htracked) with hafter | hafter
  · obtain ⟨other, hother, hopen, hid, -⟩ := (tracked_flushFinishedEvents _ _).mp hafter
    rw [List.inj_on_of_nodup_map inv.identified.ids hother hinfo hid] at hopen
    rw [hopen] at hended
    cases hended
  · exact absurd hafter (not_le.mpr hreports)

/-! Runs. -/

theorem Inv.step (inv : s.Inv) {call : Call} (inTime : s.InTime call)
    (hstep : s.step call = some s') : s'.Inv := by
  cases call with
  | trackTouch timestamp touch phase location => exact inv.trackTouch inTime hstep
  | captureSegment uptime «from» «until» =>
    obtain ⟨rfl, -, hlast⟩ := captureSegment_cases hstep
    exact inv.capture uptime hlast inTime
  | flushFinishedEvents =>
    rw [flushFinishedEvents_cases hstep]
    exact inv.flushFinishedEvents inTime

theorem Inv.not_correct_step (inv : s.Inv) {call : Call} (late : ¬ s.InTime call)
    (hstep : s.step call = some s') : ¬ s'.Correct := by
  cases call with
  | trackTouch timestamp touch phase location => exact inv.not_correct_trackTouch late hstep
  | captureSegment uptime «from» «until» =>
    obtain ⟨rfl, -, -⟩ := captureSegment_cases hstep
    exact inv.not_correct_capture uptime late
  | flushFinishedEvents =>
    rw [flushFinishedEvents_cases hstep]
    exact inv.not_correct_flushFinishedEvents late

end Steps

/-- A touch of 1 second ends at 2.5; at 3 the segment of the first 2 seconds is captured. -/
def lateCapture : List Call :=
  [.trackTouch 1 7 .began ⟨10, 10⟩, .trackTouch (5 / 2) 7 .ended ⟨10, 10⟩, .captureSegment 3 0 2,
    .flushFinishedEvents]

end Recording

end SentryCocoa.TouchTracker
