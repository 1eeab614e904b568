import SentryCocoa.TimeToDisplay

/-! What the finish callback of the time to display tracker makes of the children and of the
measurements, child by child. -/
namespace SentryCocoa.Tracer.DisplayTracer
open SentryCocoa.Foundation SentryCocoa.Session SentryCocoa.Library.Machine

variable (moment : Moment)

/-! What the callback does to the children. -/

/-- The initial display is finished at the latest when the tracer calls back. -/
def finishInitialSpan (position : Nat) (span : SentrySpan) : SentrySpan :=
  if span.isFinished then span else span.finishWithStatus .ok (moment.dates position)

def calledBackInitialSpan (timeToDisplay : SentryTimeToDisplayTracker) (startTimestamp : NSDate)
    (position : Nat) (span : SentrySpan) : SentrySpan :=
  if timeToDisplay.initialDisplaySpan = position then
    { finishInitialSpan moment position span with startTimestamp := startTimestamp }
  else span

def calledBackFullSpan (timeToDisplay : SentryTimeToDisplayTracker) (startTimestamp : NSDate)
    (initialEnd : Option NSDate) (position : Nat) (span : SentrySpan) : SentrySpan :=
  if timeToDisplay.fullDisplaySpan = some position then
    if span.status = .deadlineExceeded then
      { span with
        startTimestamp := startTimestamp
        timestamp := initialEnd
        spanDescription := some (span.spanDescription.getD "(null)" ++ " - Deadline Exceeded") }
    else { span with startTimestamp := startTimestamp }
  else span

/-- What the callback makes of a child of a tracer that starts at the date. -/
def calledBackSpan (timeToDisplay : SentryTimeToDisplayTracker) (startTimestamp : NSDate)
    (initialEnd : Option NSDate) (position : Nat) (span : SentrySpan) : SentrySpan :=
  calledBackFullSpan timeToDisplay startTimestamp initialEnd position
    (calledBackInitialSpan moment timeToDisplay startTimestamp position span)

/-- The end of the initial display once it is finished. -/
def initialEnd (timeToDisplay : SentryTimeToDisplayTracker) (tracer : DisplayTracer) :
    Option NSDate :=
  (tracer.child timeToDisplay.initialDisplaySpan).bind fun span =>
    (finishInitialSpan moment timeToDisplay.initialDisplaySpan span).timestamp

@[simp] theorem child_modifyChild (position other : Nat) (change : SentrySpan → SentrySpan)
    (tracer : DisplayTracer) : (tracer.modifyChild position change).child other =
      (tracer.child other).map fun span => if position = other then change span else span :=
  List.getElem?_modify change position tracer.tracer.children other

@[simp] theorem tracer_addTimeToDisplayMeasurement (position : Nat) (name : String)
    (tracer : DisplayTracer) :
    (tracer.addTimeToDisplayMeasurement position name).tracer = tracer.tracer := by
  unfold addTimeToDisplayMeasurement
  split <;> rfl

@[simp] theorem child_addTimeToDisplayMeasurement (position other : Nat) (name : String)
    (tracer : DisplayTracer) :
    (tracer.addTimeToDisplayMeasurement position name).child other = tracer.child other := by
  unfold child
  rw [tracer_addTimeToDisplayMeasurement]

@[simp] theorem child_startWithTracer (position other : Nat) (tracer : DisplayTracer) :
    (tracer.startWithTracer position).child other = (tracer.child other).map fun span =>
      if position = other then
        { span with startTimestamp := tracer.tracer.span.startTimestamp }
      else span := child_modifyChild position other _ tracer

theorem timestamp_startWithTracer (position other : Nat) (tracer : DisplayTracer) :
    ((tracer.startWithTracer position).child other).bind SentrySpan.timestamp =
      (tracer.child other).bind SentrySpan.timestamp := by
  rw [child_startWithTracer, Option.bind_map]
  congr 1
  funext span
  dsimp only [Function.comp]
  split <;> rfl

/-- What the callback may change. -/
structure ChildrenChanged (tracer tracer' : DisplayTracer) : Prop where
  frame : tracer'.tracer = { tracer.tracer with children := tracer'.tracer.children }
  length : tracer'.tracer.children.length = tracer.tracer.children.length
  captured : tracer'.captured = tracer.captured

theorem ChildrenChanged.refl (tracer : DisplayTracer) : ChildrenChanged tracer tracer :=
  ⟨rfl, rfl, rfl⟩

theorem ChildrenChanged.trans {first second third : DisplayTracer}
    (h : ChildrenChanged first second) (h' : ChildrenChanged second third) :
    ChildrenChanged first third := by
  refine ⟨?_, h'.length.trans h.length, h'.captured.trans h.captured⟩
  rw [h'.frame, h.frame]

theorem ChildrenChanged.modifyChild (position : Nat) (change : SentrySpan → SentrySpan)
    (tracer : DisplayTracer) : ChildrenChanged tracer (tracer.modifyChild position change) :=
  ⟨rfl, List.length_modify .., rfl⟩

theorem ChildrenChanged.addTimeToDisplayMeasurement (position : Nat) (name : String)
    (tracer : DisplayTracer) :
    ChildrenChanged tracer (tracer.addTimeToDisplayMeasurement position name) := by
  unfold DisplayTracer.addTimeToDisplayMeasurement
  split
  · exact ⟨rfl, rfl, rfl⟩
  · exact .refl tracer

/-- A child that finishes in a finished tracer changes nothing else. -/
theorem finishChildWithStatus_finished {tracer : SentryTracer} (finished : tracer.isFinished = true)
    (position : Nat) (status : SentrySpanStatus) :
    tracer.finishChildWithStatus moment (SentryTracer.canBeFinished moment) position status =
      { tracer with
        children := tracer.children.modify position fun span =>
          span.finishWithStatus status (moment.dates position) } :=
  SentryTracer.canBeFinished_quiet moment _ finished

/-- The callback with the initial display finished by one change of it. -/
theorem finishInitial_eq (timeToDisplay : SentryTimeToDisplayTracker) (tracer : DisplayTracer)
    (finished : tracer.tracer.isFinished = true) :
    (if tracer.tracer.childIsFinished timeToDisplay.initialDisplaySpan then tracer
      else
        { tracer with
          tracer := tracer.tracer.finishChildWithStatus moment (SentryTracer.canBeFinished moment)
            timeToDisplay.initialDisplaySpan .ok }) =
      tracer.modifyChild timeToDisplay.initialDisplaySpan
        (finishInitialSpan moment timeToDisplay.initialDisplaySpan) := by
  unfold modifyChild
  split
  · rename_i hchild
    rw [SentryTracer.modify_congr (g := id), List.modify_id]
    intro span hspan
    rw [SentryTracer.childIsFinished, hspan] at hchild
    exact if_pos (by simpa using hchild)
  · rename_i hchild
    rw [finishChildWithStatus_finished moment finished]
    congr 2
    apply SentryTracer.modify_congr
    intro span hspan
    rw [SentryTracer.childIsFinished, hspan] at hchild
    exact (if_neg (by simpa using hchild)).symm

/-- The callback up to the full display. -/
def calledBackInitial (timeToDisplay : SentryTimeToDisplayTracker) (tracer : DisplayTracer) :
    DisplayTracer :=
  ((({ tracer with
      timeToDisplay := some { timeToDisplay with isListener := false } } : DisplayTracer).modifyChild
    timeToDisplay.initialDisplaySpan
    (finishInitialSpan moment timeToDisplay.initialDisplaySpan)).startWithTracer
    timeToDisplay.initialDisplaySpan).addTimeToDisplayMeasurement
    timeToDisplay.initialDisplaySpan "time_to_initial_display"

theorem finishCallback_eq (timeToDisplay : SentryTimeToDisplayTracker) {tracer : DisplayTracer}
    (finished : tracer.tracer.isFinished = true) :
    tracer.finishCallback moment timeToDisplay =
      (tracer.calledBackInitial moment timeToDisplay).measureFullDisplay timeToDisplay := by
  unfold finishCallback calledBackInitial
  dsimp only
  rw [finishInitial_eq moment timeToDisplay { tracer with
    timeToDisplay := some { timeToDisplay with isListener := false } } finished]

theorem finishCallback_changed (timeToDisplay : SentryTimeToDisplayTracker)
    {tracer : DisplayTracer} (finished : tracer.tracer.isFinished = true) :
    ChildrenChanged tracer (tracer.finishCallback moment timeToDisplay) := by
  have hinitial : ChildrenChanged tracer (tracer.calledBackInitial moment timeToDisplay) := by
    apply ChildrenChanged.trans _ (.addTimeToDisplayMeasurement _ _ _)
    apply ChildrenChanged.trans _ (.modifyChild _ _ _)
    apply ChildrenChanged.trans _ (.modifyChild _ _ _)
    exact ⟨rfl, rfl, rfl⟩
  rw [finishCallback_eq moment timeToDisplay finished]
  unfold measureFullDisplay
  cases timeToDisplay.fullDisplaySpan with
  | none => exact hinitial
  | some fullDisplaySpan =>
    have hfull := (hinitial.trans (.modifyChild fullDisplaySpan (fun span =>
      { span with
        startTimestamp := (tracer.calledBackInitial moment timeToDisplay).tracer.span.startTimestamp })
      _)).trans (.addTimeToDisplayMeasurement fullDisplaySpan "time_to_full_display" _)
    dsimp only
    split
    · apply hfull.trans
      apply ChildrenChanged.trans (.modifyChild fullDisplaySpan _ _)
      exact .addTimeToDisplayMeasurement fullDisplaySpan "time_to_full_display" _
    · exact hfull

theorem calledBackInitial_child (timeToDisplay : SentryTimeToDisplayTracker)
    (tracer : DisplayTracer) (position : Nat) :
    (tracer.calledBackInitial moment timeToDisplay).child position =
      (tracer.child position).map (calledBackInitialSpan moment timeToDisplay
        tracer.tracer.span.startTimestamp position) := by
  unfold calledBackInitial
  simp only [child_addTimeToDisplayMeasurement, child_startWithTracer, child_modifyChild,
    Option.map_map]
  have hchild : ({ tracer with timeToDisplay := some { timeToDisplay with isListener := false } } :
    DisplayTracer).child position = tracer.child position := rfl
  rw [hchild]
  congr 1
  funext span
  by_cases hposition : timeToDisplay.initialDisplaySpan = position
  · subst hposition
    simp [modifyChild, calledBackInitialSpan]
  · simp [hposition, calledBackInitialSpan]

theorem finishCallback_child (timeToDisplay : SentryTimeToDisplayTracker) {tracer : DisplayTracer}
    (finished : tracer.tracer.isFinished = true) (position : Nat) :
    (tracer.finishCallback moment timeToDisplay).child position =
      (tracer.child position).map (calledBackSpan moment timeToDisplay
        tracer.tracer.span.startTimestamp (tracer.initialEnd moment timeToDisplay) position) := by
  have hinitial := tracer.calledBackInitial_child moment timeToDisplay
  have hstart : (tracer.calledBackInitial moment timeToDisplay).tracer.span.startTimestamp =
      tracer.tracer.span.startTimestamp := by
    simp [calledBackInitial, startWithTracer, modifyChild]
  have hend : ((tracer.calledBackInitial moment timeToDisplay).child
      timeToDisplay.initialDisplaySpan).bind SentrySpan.timestamp =
        tracer.initialEnd moment timeToDisplay := by
    rw [hinitial, Option.bind_map]
    unfold initialEnd
    congr 1
    funext span
    simp [calledBackInitialSpan]
  rw [finishCallback_eq moment timeToDisplay finished]
  unfold measureFullDisplay
  cases hfull : timeToDisplay.fullDisplaySpan with
  | none =>
    dsimp only
    rw [hinitial]
    unfold calledBackSpan calledBackFullSpan
    simp [hfull]
  | some fullDisplaySpan =>
    dsimp only
    have hinitialPosition := hinitial position
    cases hchild : tracer.child position with
    | none =>
      rw [hchild] at hinitialPosition
      split <;> simp [exceedDeadline, hinitialPosition]
    | some span =>
      rw [hchild] at hinitialPosition
      by_cases hposition : fullDisplaySpan = position
      · subst hposition
        unfold exceedDeadline
        simp only [child_addTimeToDisplayMeasurement, timestamp_startWithTracer, hend]
        rw [child_startWithTracer, hinitialPosition, hstart]
        simp only [Option.map_some, Option.any_some, if_true, decide_eq_true_eq, calledBackSpan,
          calledBackFullSpan, hfull]
        split <;> simp [hinitialPosition, hstart]
      · split <;> simp [exceedDeadline, hinitialPosition, hposition, calledBackSpan,
          calledBackFullSpan, hfull]

theorem objectForKey_addTimeToDisplayMeasurement {position : Nat} {tracer : DisplayTracer}
    {span : SentrySpan} (hspan : tracer.child position = some span) (name key : String) :
    (tracer.addTimeToDisplayMeasurement position name).measurements.objectForKey key =
      if key = name then some (durationMilliseconds span)
      else tracer.measurements.objectForKey key := by
  unfold addTimeToDisplayMeasurement
  rw [hspan]
  exact objectForKey_insert tracer.measurements name key (durationMilliseconds span)

theorem finishCallback_initialMeasurement {timeToDisplay : SentryTimeToDisplayTracker}
    {tracer : DisplayTracer} (finished : tracer.tracer.isFinished = true) {span : SentrySpan}
    (hspan : tracer.child timeToDisplay.initialDisplaySpan = some span) :
    (tracer.finishCallback moment timeToDisplay).measurements.objectForKey
        "time_to_initial_display" =
      some (durationMilliseconds (calledBackInitialSpan moment timeToDisplay
        tracer.tracer.span.startTimestamp timeToDisplay.initialDisplaySpan span)) := by
  have hinitial : (tracer.calledBackInitial moment timeToDisplay).measurements.objectForKey
      "time_to_initial_display" = some (durationMilliseconds (calledBackInitialSpan moment
        timeToDisplay tracer.tracer.span.startTimestamp timeToDisplay.initialDisplaySpan
        span)) := by
    have hchild := tracer.calledBackInitial_child moment timeToDisplay
      timeToDisplay.initialDisplaySpan
    rw [hspan] at hchild
    unfold calledBackInitial at hchild ⊢
    rw [child_addTimeToDisplayMeasurement] at hchild
    rw [objectForKey_addTimeToDisplayMeasurement hchild, if_pos rfl]
  have hother : ∀ (position : Nat) (tracer : DisplayTracer),
      (tracer.addTimeToDisplayMeasurement position
        "time_to_full_display").measurements.objectForKey "time_to_initial_display" =
          tracer.measurements.objectForKey "time_to_initial_display" := by
    intro position tracer
    cases hchild : tracer.child position with
    | none => rw [addTimeToDisplayMeasurement, hchild]
    | some span =>
      rw [objectForKey_addTimeToDisplayMeasurement hchild, if_neg (by decide)]
  rw [finishCallback_eq moment timeToDisplay finished]
  unfold measureFullDisplay
  cases timeToDisplay.fullDisplaySpan with
  | none => exact hinitial
  | some fullDisplaySpan =>
    dsimp only
    split
    · exact (hother fullDisplaySpan _).trans ((hother fullDisplaySpan _).trans hinitial)
    · exact (hother fullDisplaySpan _).trans hinitial

/-- The measurement of the full display is made twice when it exceeded the deadline. -/
theorem finishCallback_fullMeasurement {timeToDisplay : SentryTimeToDisplayTracker}
    {tracer : DisplayTracer} (finished : tracer.tracer.isFinished = true) {position : Nat}
    (full : timeToDisplay.fullDisplaySpan = some position) {span : SentrySpan}
    (hspan : tracer.child position = some span) :
    (tracer.finishCallback moment timeToDisplay).measurements.objectForKey "time_to_full_display" =
      some (durationMilliseconds (calledBackSpan moment timeToDisplay
        tracer.tracer.span.startTimestamp (tracer.initialEnd moment timeToDisplay) position
        span)) := by
  have hchild := finishCallback_child moment timeToDisplay finished position
  rw [finishCallback_eq moment timeToDisplay finished, measureFullDisplay, full, hspan] at hchild
  rw [finishCallback_eq moment timeToDisplay finished, measureFullDisplay, full]
  dsimp only at hchild ⊢
  split
  · rename_i hexceeded
    rw [if_pos hexceeded] at hchild
    unfold exceedDeadline at hchild ⊢
    rw [child_addTimeToDisplayMeasurement] at hchild
    rw [objectForKey_addTimeToDisplayMeasurement hchild, if_pos rfl]
  · rename_i hexceeded
    rw [if_neg hexceeded, child_addTimeToDisplayMeasurement] at hchild
    rw [objectForKey_addTimeToDisplayMeasurement hchild, if_pos rfl]

end SentryCocoa.Tracer.DisplayTracer
