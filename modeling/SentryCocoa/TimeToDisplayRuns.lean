import SentryCocoa.TracerEnd

/-! Runs of the tracer of a view controller: whatever order the frames, the reports, the other
children and the deadline come in, the transaction has its displays finished and measured. -/
namespace SentryCocoa.Tracer.DisplayTracer
open SentryCocoa.Foundation SentryCocoa.Session SentryCocoa.Library.Machine

/-- The calls, the frames and the timers. The spans of the displays are the tracker's own. -/
inductive DisplayEvent where
  | startChild (activeSpan : Option Nat) (operation : String) (description : Option String)
  | finishChild (position : Nat) (status : SentrySpanStatus)
  | finishWithStatus (status : SentrySpanStatus)
  | setStatus (status : SentrySpanStatus)
  | reportInitialDisplay
  | reportFullyDisplayed
  | fullyDisplayedBlock
  | newFrame (newFrameDate : NSDate)
  | idleTimeout
  | deadlineTimer

def isDisplaySpan (tracer : DisplayTracer) (position : Nat) : Bool :=
  tracer.timeToDisplay.any fun timeToDisplay =>
    timeToDisplay.initialDisplaySpan = position ∨ timeToDisplay.fullDisplaySpan = some position

def step (tracer : DisplayTracer) (input : DisplayEvent × Moment) : Option DisplayTracer :=
  let (event, moment) := input
  match event with
  | .startChild activeSpan operation description =>
    some (tracer.startChildWithOperation moment activeSpan operation description)
  | .finishChild position status =>
    if position < tracer.tracer.children.length ∧ ¬tracer.isDisplaySpan position then
      some (tracer.finishChildWithStatus moment position status)
    else none
  | .finishWithStatus status => some (tracer.finishWithStatus moment status)
  | .setStatus status => some { tracer with tracer.span.status := status }
  | .reportInitialDisplay => some tracer.reportInitialDisplay
  | .reportFullyDisplayed => some tracer.reportFullyDisplayed
  | .fullyDisplayedBlock =>
    if 0 < tracer.queuedReports then
      some { tracer with queuedReports := tracer.queuedReports - 1 }.fullyDisplayedBlock
    else none
  | .newFrame newFrameDate => some (tracer.framesTrackerHasNewFrame moment newFrameDate)
  | .idleTimeout =>
    if tracer.tracer.hasIdleTimeout then some (tracer.finishInternal moment) else none
  | .deadlineTimer =>
    if tracer.tracer.isAutoGeneratedTransaction then some (tracer.deadlineTimerFired moment)
    else none

/-- What can come of a tracer that runs: it still runs, its transaction is discarded, or the
transaction is handed over by a tracer that was ready for it. -/
inductive Outcome (moment : Moment) (inv ready : DisplayTracer → Prop)
    (before : List CapturedDisplay) (tracer : DisplayTracer) : Prop
  | running (running : tracer.tracer.isFinished = false) (captured : tracer.captured = before)
      (inv : inv tracer)
  | discarded (finished : tracer.tracer.isFinished = true) (captured : tracer.captured = before)
  | handedOver (finished : tracer.tracer.isFinished = true) (entry : DisplayTracer)
      (ready : ready entry) (transaction : CapturedDisplay)
      (hands : HandsOver moment entry transaction)
      (captured : tracer.captured = before ++ [transaction])

/-- A function that hands nothing over once the tracer is finished. -/
def Inert (f : DisplayTracer → DisplayTracer) : Prop :=
  ∀ tracer, tracer.tracer.isFinished = true →
    (f tracer).tracer.isFinished = true ∧ (f tracer).captured = tracer.captured

theorem Inert.comp {f g : DisplayTracer → DisplayTracer} (hf : Inert f) (hg : Inert g) :
    Inert fun tracer => g (f tracer) := by
  intro tracer finished
  obtain ⟨hfinished, hcaptured⟩ := hf tracer finished
  obtain ⟨hfinished', hcaptured'⟩ := hg (f tracer) hfinished
  exact ⟨hfinished', hcaptured'.trans hcaptured⟩

section Outcome
variable {moment : Moment} {inv inv' ready : DisplayTracer → Prop} {before : List CapturedDisplay}

theorem Outcome.bind {tracer : DisplayTracer} (h : Outcome moment inv ready before tracer)
    {f : DisplayTracer → DisplayTracer} (inert : Inert f)
    (next : ∀ tracer, tracer.tracer.isFinished = false → tracer.captured = before → inv tracer →
      Outcome moment inv' ready before (f tracer)) :
    Outcome moment inv' ready before (f tracer) := by
  cases h with
  | running running captured inv => exact next tracer running captured inv
  | discarded finished captured =>
    obtain ⟨hfinished, hcaptured⟩ := inert tracer finished
    exact .discarded hfinished (hcaptured.trans captured)
  | handedOver finished entry ready transaction hands captured =>
    obtain ⟨hfinished, hcaptured⟩ := inert tracer finished
    exact .handedOver hfinished entry ready transaction hands (hcaptured.trans captured)

theorem finishInternal_outcome {tracer : DisplayTracer}
    (running : tracer.tracer.isFinished = false) (captured : tracer.captured = before)
    (hready : ready tracer) :
    Outcome moment inv ready before (tracer.finishInternal moment) := by
  obtain ⟨hfinished, hsame | ⟨transaction, hands, hlist⟩⟩ := finishInternal_cases moment running
  · exact .discarded hfinished (hsame.trans captured)
  · exact .handedOver hfinished tracer hready transaction hands (by rw [hlist, captured])

/-- A tracer that can be finished waits for no child. -/
theorem canBeFinished_outcome {tracer : DisplayTracer}
    (running : tracer.tracer.isFinished = false) (captured : tracer.captured = before)
    (hinv : inv tracer)
    (hready : tracer.hasUnfinishedChildSpansToWaitFor = false → ready tracer) :
    Outcome moment inv ready before (tracer.canBeFinished moment) := by
  have hsame : Outcome moment inv ready before tracer := .running running captured hinv
  unfold canBeFinished dispatchIdleTimeout
  dsimp only
  split_ifs with hfinished hidle hblock hwait
  · exact hsame
  · exact hsame
  · exact finishInternal_outcome running captured (hready (by simpa using hidle.2.1))
  · exact hsame
  · rw [not_or] at hwait
    exact finishInternal_outcome running captured (hready (by simpa using hwait.2))

end Outcome

section Inert
variable (moment : Moment)

theorem finishInternal_inert : Inert (finishInternal moment) := by
  intro tracer finished
  unfold finishInternal finishTracer
  rw [if_pos finished]
  exact ⟨finished, rfl⟩

theorem canBeFinished_inert : Inert (canBeFinished moment) := by
  intro tracer finished
  unfold canBeFinished
  rw [if_pos finished]
  exact ⟨finished, rfl⟩

theorem modifyChild_inert (position : Nat) (change : SentrySpan → SentrySpan) :
    Inert (modifyChild position change) :=
  fun _ finished => ⟨finished, rfl⟩

theorem finishChildWithStatus_inert (position : Nat) (status : SentrySpanStatus) :
    Inert (finishChildWithStatus moment position status) :=
  (modifyChild_inert position _).comp (canBeFinished_inert moment)

theorem finishWithFrame_inert (newFrameDate : NSDate) (position : Nat) :
    Inert (finishWithFrame moment newFrameDate position) :=
  (modifyChild_inert position _).comp (finishChildWithStatus_inert moment position .ok)

theorem removeListener_inert : Inert removeListener :=
  fun _ finished => ⟨finished, rfl⟩

theorem finishUnlessFinished_inert (status : SentrySpanStatus) (position : Nat) :
    Inert (finishUnlessFinished moment status · position) := by
  intro tracer finished
  dsimp only
  unfold finishUnlessFinished
  split
  · exact ⟨finished, rfl⟩
  · exact finishChildWithStatus_inert moment position status tracer finished

theorem finishInitialDisplay_inert (newFrameDate : NSDate)
    (timeToDisplay : SentryTimeToDisplayTracker) :
    Inert (finishInitialDisplay moment newFrameDate timeToDisplay) := by
  intro tracer finished
  have hframe := finishWithFrame_inert moment newFrameDate timeToDisplay.initialDisplaySpan tracer
    finished
  unfold finishInitialDisplay
  dsimp only
  split_ifs
  · exact hframe
  · exact hframe
  · exact ⟨finished, rfl⟩

theorem finishFullDisplay_inert (newFrameDate : NSDate)
    (timeToDisplay : SentryTimeToDisplayTracker) :
    Inert (finishFullDisplay moment newFrameDate timeToDisplay) := by
  intro tracer finished
  unfold finishFullDisplay
  split
  · split
    · exact finishWithFrame_inert moment newFrameDate _ tracer finished
    · exact ⟨finished, rfl⟩
  · exact ⟨finished, rfl⟩

theorem finishDisplays_inert (newFrameDate : NSDate)
    (timeToDisplay : SentryTimeToDisplayTracker) :
    Inert (finishDisplays moment newFrameDate timeToDisplay) := by
  have hremove : Inert fun tracer : DisplayTracer =>
      if tracer.tracer.childIsFinished timeToDisplay.initialDisplaySpan ∧
        tracer.fullDisplayIsFinished timeToDisplay then tracer.removeListener else tracer := by
    intro tracer finished
    dsimp only
    split
    · exact removeListener_inert tracer finished
    · exact ⟨finished, rfl⟩
  exact ((finishInitialDisplay_inert moment newFrameDate timeToDisplay).comp
    (finishFullDisplay_inert moment newFrameDate timeToDisplay)).comp hremove

theorem framesTrackerHasNewFrame_inert (newFrameDate : NSDate) :
    Inert (framesTrackerHasNewFrame moment newFrameDate) := by
  intro tracer finished
  unfold framesTrackerHasNewFrame
  dsimp only
  split
  · exact ⟨finished, rfl⟩
  · split
    · exact finishDisplays_inert moment newFrameDate _
        { tracer with lastFrameDate := newFrameDate } finished
    · exact ⟨finished, rfl⟩

end Inert

/-! The spans of the displays while the tracer runs. -/

theorem childIsFinished_of_child {tracer : DisplayTracer} {position : Nat} {span : SentrySpan}
    (hspan : tracer.child position = some span) :
    tracer.tracer.childIsFinished position = span.isFinished := by
  rw [child] at hspan
  rw [SentryTracer.childIsFinished, hspan, Option.any_some]

structure Unended (span : SentrySpan) : Prop where
  running : span.isFinished = false
  timestamp : span.timestamp = none

structure EndsAt (span : SentrySpan) (date : NSDate) : Prop where
  finished : span.isFinished = true
  timestamp : span.timestamp = some date

/-- The full display ends after the initial display, or it exceeded the deadline. -/
structure Spans (initial : Nat) (full : Option Nat) (start : NSDate)
    (child : Nat → Option SentrySpan) : Prop where
  initialDisplay : ∃ span, child initial = some span ∧
    (Unended span ∨ ∃ date, EndsAt span date ∧ start.milliseconds ≤ date.milliseconds)
  fullDisplay : ∀ position, full = some position → initial < position ∧
    ∃ span, child position = some span ∧
      (Unended span ∨ span.isFinished = true ∧ ∃ initialSpan initialDate,
        child initial = some initialSpan ∧ EndsAt initialSpan initialDate ∧
        (span.status = .deadlineExceeded ∨ ∃ date, span.timestamp = some date ∧
          initialDate.milliseconds ≤ date.milliseconds))

section Spans
variable {initial : Nat} {full : Option Nat} {start : NSDate}
  {child child' : Nat → Option SentrySpan}

theorem Spans.mono (spans : Spans initial full start child)
    (h : ∀ position span, position = initial ∨ full = some position →
      child position = some span → child' position = some span) :
    Spans initial full start child' := by
  constructor
  · obtain ⟨span, hspan, hends⟩ := spans.initialDisplay
    exact ⟨span, h initial span (Or.inl rfl) hspan, hends⟩
  · intro position hposition
    obtain ⟨hlt, span, hspan, hends⟩ := spans.fullDisplay position hposition
    refine ⟨hlt, span, h position span (Or.inr hposition) hspan, hends.imp_right ?_⟩
    rintro ⟨hfinished, initialSpan, initialDate, hinitial, hrest⟩
    exact ⟨hfinished, initialSpan, initialDate, h initial initialSpan (Or.inl rfl) hinitial, hrest⟩

/-- While the initial display runs the full display does. -/
theorem Spans.full_unended (spans : Spans initial full start child) {span : SentrySpan}
    (hspan : child initial = some span) (running : span.isFinished = false) {position : Nat}
    (hposition : full = some position) :
    ∃ fullSpan, child position = some fullSpan ∧ Unended fullSpan := by
  obtain ⟨-, fullSpan, hfull, hunended | ⟨-, initialSpan, initialDate, hinitial, hends, -⟩⟩ :=
    spans.fullDisplay position hposition
  · exact ⟨fullSpan, hfull, hunended⟩
  · have hfinished := hends.finished
    rw [← Option.some.inj (hspan.symm.trans hinitial), running] at hfinished
    cases hfinished

theorem Spans.finishInitial (spans : Spans initial full start child) {span ended : SentrySpan}
    (hspan : child initial = some span) (running : span.isFinished = false) {date : NSDate}
    (hends : EndsAt ended date) (hdate : start.milliseconds ≤ date.milliseconds) :
    Spans initial full start (Function.update child initial (some ended)) := by
  constructor
  · exact ⟨ended, Function.update_self .., Or.inr ⟨date, hends, hdate⟩⟩
  · intro position hposition
    have hlt := (spans.fullDisplay position hposition).1
    obtain ⟨fullSpan, hfull, hunended⟩ := spans.full_unended hspan running hposition
    refine ⟨hlt, fullSpan, ?_, Or.inl hunended⟩
    rw [Function.update_of_ne hlt.ne']
    exact hfull

theorem Spans.finishFull (spans : Spans initial full start child) {position : Nat}
    (hposition : full = some position) {ended initialSpan : SentrySpan} {initialDate : NSDate}
    (hinitial : child initial = some initialSpan) (hends : EndsAt initialSpan initialDate)
    (finished : ended.isFinished = true)
    (hdate : ended.status = .deadlineExceeded ∨ ∃ date, ended.timestamp = some date ∧
      initialDate.milliseconds ≤ date.milliseconds) :
    Spans initial full start (Function.update child position (some ended)) := by
  have hlt := (spans.fullDisplay position hposition).1
  have hother : Function.update child position (some ended) initial = child initial :=
    Function.update_of_ne hlt.ne (some ended) child
  constructor
  · rw [hother]
    exact spans.initialDisplay
  · intro other hfull
    cases hposition.symm.trans hfull
    refine ⟨hlt, ended, Function.update_self .., Or.inr ⟨finished, initialSpan, initialDate, ?_⟩⟩
    rw [hother]
    exact ⟨hinitial, hends, hdate⟩

end Spans

/-- A tracer with its time to display tracker, before it finishes. -/
structure Screen (initial : Nat) (full : Option Nat) (start : NSDate) (tracer : DisplayTracer) :
    Prop where
  timeToDisplay : ∃ timeToDisplay, tracer.timeToDisplay = some timeToDisplay ∧
    timeToDisplay.initialDisplaySpan = initial ∧ timeToDisplay.fullDisplaySpan = full
  finishCallback : tracer.tracer.finishCallback = true
  waitForChildren : tracer.tracer.configuration.waitForChildren = true
  idleTimeout : tracer.tracer.hasIdleTimeout = false
  startTimestamp : tracer.tracer.span.startTimestamp = start
  spans : Spans initial full start tracer.child

/-- The full display is finished, if the tracer waits for one. -/
structure Ready (initial : Nat) (full : Option Nat) (start : NSDate) (tracer : DisplayTracer) :
    Prop where
  screen : Screen initial full start tracer
  fullDisplay : ∀ position, full = some position → tracer.tracer.childIsFinished position = true

section Screen
variable {initial : Nat} {full : Option Nat} {start : NSDate} {tracer tracer' : DisplayTracer}

theorem Screen.ready (screen : Screen initial full start tracer)
    (h : tracer.hasUnfinishedChildSpansToWaitFor = false) : Ready initial full start tracer := by
  refine ⟨screen, fun position hposition => ?_⟩
  obtain ⟨timeToDisplay, htimeToDisplay, hinitial, -⟩ := screen.timeToDisplay
  obtain ⟨hlt, span, hspan, -⟩ := screen.spans.fullDisplay position hposition
  obtain ⟨hlength, -⟩ := List.getElem?_eq_some_iff.mp hspan
  unfold hasUnfinishedChildSpansToWaitFor at h
  rw [screen.waitForChildren, Bool.true_and, List.any_eq_false] at h
  have hwait := h position (List.mem_range.mpr hlength)
  have hother : tracer.shouldIgnoreWaitForChildren position = false := by
    unfold shouldIgnoreWaitForChildren
    rw [htimeToDisplay, Option.any_some, hinitial]
    exact decide_eq_false hlt.ne
  simpa [hother] using hwait

/-- What a screen depends on. -/
theorem Screen.of_frame (screen : Screen initial full start tracer)
    (htimeToDisplay : ∀ timeToDisplay, tracer.timeToDisplay = some timeToDisplay →
      ∃ timeToDisplay', tracer'.timeToDisplay = some timeToDisplay' ∧
        timeToDisplay'.initialDisplaySpan = timeToDisplay.initialDisplaySpan ∧
        timeToDisplay'.fullDisplaySpan = timeToDisplay.fullDisplaySpan)
    (hcallback : tracer'.tracer.finishCallback = tracer.tracer.finishCallback)
    (hconfiguration : tracer'.tracer.configuration = tracer.tracer.configuration)
    (hstart : tracer'.tracer.span.startTimestamp = tracer.tracer.span.startTimestamp)
    (spans : Spans initial full start tracer'.child) : Screen initial full start tracer' := by
  constructor
  · obtain ⟨timeToDisplay, hsome, hinitial, hfull⟩ := screen.timeToDisplay
    obtain ⟨timeToDisplay', hsome', hinitial', hfull'⟩ := htimeToDisplay timeToDisplay hsome
    exact ⟨timeToDisplay', hsome', hinitial'.trans hinitial, hfull'.trans hfull⟩
  · exact hcallback.trans screen.finishCallback
  · rw [hconfiguration, screen.waitForChildren]
  · unfold SentryTracer.hasIdleTimeout
    rw [hconfiguration]
    exact screen.idleTimeout
  · exact hstart.trans screen.startTimestamp
  · exact spans

theorem Screen.modifyChild (screen : Screen initial full start tracer) (position : Nat)
    (change : SentrySpan → SentrySpan)
    (spans : Spans initial full start (tracer.modifyChild position change).child) :
    Screen initial full start (tracer.modifyChild position change) :=
  screen.of_frame (fun timeToDisplay hsome => ⟨timeToDisplay, hsome, rfl, rfl⟩) rfl rfl rfl spans

/-- Another child may change in any way. -/
theorem Screen.modifyOther (screen : Screen initial full start tracer) {position : Nat}
    (other : position ≠ initial ∧ full ≠ some position) (change : SentrySpan → SentrySpan) :
    Screen initial full start (tracer.modifyChild position change) := by
  apply screen.modifyChild
  apply screen.spans.mono
  intro display span hdisplay hspan
  have hne : position ≠ display := by
    rintro rfl
    exact hdisplay.elim other.1 other.2
  rw [child_modifyChild, hspan, Option.map_some, if_neg hne]

end Screen

/-! What is handed over. -/

/-- In the transaction the span is finished, and measured from the start. -/
structure Measured (captured : CapturedDisplay) (position : Nat) (name : String)
    (date : NSDate) : Prop where
  span : ∃ span, captured.transaction.children[position]? = some span ∧ EndsAt span date
  measurement : captured.measurements.objectForKey name = some (date.milliseconds -
    captured.transaction.transaction.startTimestamp.milliseconds)

/-- The initial display ends after the start, and the full display not before it. -/
structure Displayed (initial : Nat) (full : Option Nat) (captured : CapturedDisplay) : Prop where
  displays : ∃ date, Measured captured initial "time_to_initial_display" date ∧
    captured.transaction.transaction.startTimestamp.milliseconds ≤ date.milliseconds ∧
    ∀ position, full = some position → ∃ fullDate,
      Measured captured position "time_to_full_display" fullDate ∧
      date.milliseconds ≤ fullDate.milliseconds

/-- Clocks show no time before the start, and the app started before the tracer. -/
structure ClockInOrder (moment : Moment) (start : NSDate) : Prop where
  dates : ∀ position, start.milliseconds ≤ (moment.dates position).milliseconds
  appStart : ∀ measurement, moment.appStartMeasurement = some measurement →
    measurement.appStartTimestamp.milliseconds ≤ start.milliseconds

section HandsOver
variable {moment : Moment} {initial : Nat} {full : Option Nat} {start : NSDate}
  {tracer : DisplayTracer} {captured : CapturedDisplay}

theorem ClockInOrder.finalStart_le (clock : ClockInOrder moment start)
    (hstart : tracer.tracer.span.startTimestamp = start) :
    (tracer.finalStart moment).milliseconds ≤ start.milliseconds := by
  unfold finalStart
  cases happStart : moment.appStartMeasurement with
  | none => exact hstart ▸ Int.le_refl _
  | some measurement => exact clock.appStart measurement happStart

/-- A span that the callback leaves finished is handed over as it is. -/
theorem HandsOver.measured (hands : HandsOver moment tracer captured)
    {timeToDisplay : SentryTimeToDisplayTracker} (calls : tracer.CallsBack timeToDisplay)
    {position : Nat} {span called : SentrySpan} (hspan : tracer.child position = some span)
    (hcalled : calledBackSpan moment timeToDisplay (tracer.finalStart moment)
      (tracer.initialEnd moment timeToDisplay) position span = called)
    {date : NSDate} (ends : EndsAt called date)
    (hstart : called.startTimestamp = tracer.finalStart moment) {name : String}
    (measurement : (tracer.finishSelf moment true).measurements.objectForKey name =
      some (durationMilliseconds called)) : Measured captured position name date := by
  constructor
  · refine ⟨called, ?_, ends⟩
    rw [hands.children, hspan, Option.map_some, spanAfterCallback_of_callsBack moment _ calls,
      hcalled]
    exact congrArg some (if_pos ends.finished)
  · rw [hands.measurements, measurement, hands.start]
    unfold durationMilliseconds
    rw [ends.timestamp, hstart]

theorem finishInitialSpan_endsAt (clock : ClockInOrder moment start) {span : SentrySpan}
    (h : Unended span ∨ ∃ date, EndsAt span date ∧ start.milliseconds ≤ date.milliseconds)
    (position : Nat) : ∃ date, EndsAt (finishInitialSpan moment position span) date ∧
      start.milliseconds ≤ date.milliseconds := by
  rcases h with unended | ⟨date, ends, hdate⟩
  · rw [finishInitialSpan_running moment position unended.running]
    refine ⟨moment.dates position, ⟨rfl, ?_⟩, clock.dates position⟩
    rw [SentrySpan.finishWithStatus, unended.timestamp]
    rfl
  · rw [finishInitialSpan_finished moment position ends.finished]
    exact ⟨date, ends, hdate⟩

theorem calledBackFullSpan_start {timeToDisplay : SentryTimeToDisplayTracker} {position : Nat}
    (hfull : timeToDisplay.fullDisplaySpan = some position) (startTimestamp : NSDate)
    (initialEnd : Option NSDate) (span : SentrySpan) :
    (calledBackFullSpan timeToDisplay startTimestamp initialEnd position span).startTimestamp =
      startTimestamp := by
  unfold calledBackFullSpan
  rw [if_pos hfull]
  split <;> rfl

theorem Ready.displayed (ready : Ready initial full start tracer)
    (hands : HandsOver moment tracer captured) (clock : ClockInOrder moment start) :
    Displayed initial full captured := by
  obtain ⟨timeToDisplay, htimeToDisplay, rfl, rfl⟩ := ready.screen.timeToDisplay
  have calls : tracer.CallsBack timeToDisplay := ⟨ready.screen.finishCallback, htimeToDisplay⟩
  have hstart := clock.finalStart_le ready.screen.startTimestamp
  obtain ⟨span, hspan, hends⟩ := ready.screen.spans.initialDisplay
  obtain ⟨date, ends, hdate⟩ :=
    finishInitialSpan_endsAt clock hends timeToDisplay.initialDisplaySpan
  have hinitialEnd : tracer.initialEnd moment timeToDisplay = some date := by
    unfold initialEnd
    rw [hspan]
    exact ends.timestamp
  have hinitial : calledBackInitialSpan moment timeToDisplay (tracer.finalStart moment)
      timeToDisplay.initialDisplaySpan span =
        { finishInitialSpan moment timeToDisplay.initialDisplaySpan span with
          startTimestamp := tracer.finalStart moment } := if_pos rfl
  refine ⟨date, ?_, ?_, ?_⟩
  · have hcalled : calledBackSpan moment timeToDisplay (tracer.finalStart moment)
        (tracer.initialEnd moment timeToDisplay) timeToDisplay.initialDisplaySpan span =
          { finishInitialSpan moment timeToDisplay.initialDisplaySpan span with
            startTimestamp := tracer.finalStart moment } := by
      rw [calledBackSpan, hinitial]
      apply if_neg
      intro hfull
      exact Nat.lt_irrefl _ (ready.screen.spans.fullDisplay _ hfull).1
    apply hands.measured calls hspan hcalled ⟨ends.finished, ends.timestamp⟩ rfl
    rw [finishSelf_initialMeasurement moment calls hspan, hinitial]
  · rw [hands.start]
    exact Int.le_trans hstart hdate
  · intro position hfull
    have hfinished := ready.fullDisplay position hfull
    obtain ⟨hlt, fullSpan, hfullSpan, hfullEnds⟩ := ready.screen.spans.fullDisplay position hfull
    rw [childIsFinished_of_child hfullSpan] at hfinished
    have hother : calledBackInitialSpan moment timeToDisplay (tracer.finalStart moment) position
        fullSpan = fullSpan := if_neg hlt.ne
    have hmeasured : ∀ fullDate, (calledBackFullSpan timeToDisplay (tracer.finalStart moment)
        (tracer.initialEnd moment timeToDisplay) position fullSpan).timestamp = some fullDate →
          Measured captured position "time_to_full_display" fullDate := by
      intro fullDate htimestamp
      have hcalled : calledBackSpan moment timeToDisplay (tracer.finalStart moment)
          (tracer.initialEnd moment timeToDisplay) position fullSpan =
            calledBackFullSpan timeToDisplay (tracer.finalStart moment)
              (tracer.initialEnd moment timeToDisplay) position fullSpan := by
        rw [calledBackSpan, hother]
      apply hands.measured calls hfullSpan hcalled ⟨?_, htimestamp⟩
        (calledBackFullSpan_start hfull _ _ fullSpan)
      · rw [finishSelf_fullMeasurement moment calls hfull hfullSpan, hcalled]
      · rw [calledBackFullSpan_isFinished]
        exact hfinished
    rcases hfullEnds with hunended | ⟨-, initialSpan, initialDate, hinitialSpan, hinitialEnds, h⟩
    · rw [hunended.running] at hfinished
      cases hfinished
    cases Option.some.inj (hspan.symm.trans hinitialSpan)
    rw [finishInitialSpan_finished moment _ hinitialEnds.finished] at ends
    cases Option.some.inj (ends.timestamp.symm.trans hinitialEnds.timestamp)
    by_cases hexceeded : fullSpan.status = .deadlineExceeded
    · refine ⟨date, hmeasured date ?_, Int.le_refl _⟩
      rw [calledBackFullSpan_exceeded _ _ hfull hexceeded, hinitialEnd]
    · obtain ⟨fullDate, htimestamp, hle⟩ := h.resolve_left hexceeded
      refine ⟨fullDate, hmeasured fullDate ?_, hle⟩
      rw [calledBackFullSpan_timestamp _ _ fun _ => hexceeded, htimestamp]

end HandsOver

/-! The steps. -/

/-- Between the steps the initial display can only have ended with a frame. -/
structure Running (initial : Nat) (full : Option Nat) (start frameDate : NSDate)
    (tracer : DisplayTracer) : Prop where
  screen : Screen initial full start tracer
  lastFrameDate : tracer.lastFrameDate = frameDate
  frame : ∀ span date, tracer.child initial = some span → EndsAt span date →
    date.milliseconds ≤ frameDate.milliseconds

section Steps
variable {moment : Moment} {initial : Nat} {full : Option Nat} {start frameDate : NSDate}
  {before : List CapturedDisplay} {tracer : DisplayTracer}

variable (moment) in
theorem Running.canBeFinished (screen : Running initial full start frameDate tracer)
    (running : tracer.tracer.isFinished = false) (captured : tracer.captured = before) :
    Outcome moment (Running initial full start frameDate) (Ready initial full start) before
      (tracer.canBeFinished moment) :=
  canBeFinished_outcome running captured screen screen.screen.ready

/-- A change that leaves the children of the displays alone. -/
theorem Running.of_frame (screen : Running initial full start frameDate tracer) {tracer' : DisplayTracer}
    (htimeToDisplay : ∀ timeToDisplay, tracer.timeToDisplay = some timeToDisplay →
      ∃ timeToDisplay', tracer'.timeToDisplay = some timeToDisplay' ∧
        timeToDisplay'.initialDisplaySpan = timeToDisplay.initialDisplaySpan ∧
        timeToDisplay'.fullDisplaySpan = timeToDisplay.fullDisplaySpan)
    (hcallback : tracer'.tracer.finishCallback = tracer.tracer.finishCallback)
    (hconfiguration : tracer'.tracer.configuration = tracer.tracer.configuration)
    (hstart : tracer'.tracer.span.startTimestamp = tracer.tracer.span.startTimestamp)
    (hchild : ∀ position span, position = initial ∨ full = some position →
      tracer.child position = some span → tracer'.child position = some span)
    (hframe : tracer'.lastFrameDate = tracer.lastFrameDate) :
    Running initial full start frameDate tracer' := by
  constructor
  · exact screen.screen.of_frame htimeToDisplay hcallback hconfiguration hstart
      (screen.screen.spans.mono hchild)
  · exact hframe.trans screen.lastFrameDate
  · intro span date hspan hends
    obtain ⟨initialSpan, hinitial, -⟩ := screen.screen.spans.initialDisplay
    cases hspan.symm.trans (hchild initial initialSpan (Or.inl rfl) hinitial)
    exact screen.frame span date hinitial hends

theorem Running.changeTimeToDisplay (screen : Running initial full start frameDate tracer)
    {change : SentryTimeToDisplayTracker → SentryTimeToDisplayTracker}
    (hchange : ∀ timeToDisplay,
      (change timeToDisplay).initialDisplaySpan = timeToDisplay.initialDisplaySpan ∧
        (change timeToDisplay).fullDisplaySpan = timeToDisplay.fullDisplaySpan) :
    Running initial full start frameDate (tracer.changeTimeToDisplay change) := by
  refine screen.of_frame ?_ rfl rfl rfl (fun _ _ _ hspan => hspan) rfl
  intro timeToDisplay hsome
  refine ⟨change timeToDisplay, ?_, hchange timeToDisplay⟩
  rw [DisplayTracer.changeTimeToDisplay, hsome]
  rfl

variable (moment) in
theorem startChildWithOperation_running {tracer : SentryTracer}
    (running : tracer.isFinished = false) (activeSpan : Option Nat) (operation : String)
    (description : Option String) : ∃ span : SentrySpan, Unended span ∧
      (tracer.startChildWithOperation moment activeSpan operation description).1 =
        { tracer with children := tracer.children ++ [span] } := by
  obtain ⟨parentId, heq⟩ :=
    SentryTracer.startChildWithOperation_eq moment tracer activeSpan operation description
  rw [heq]
  unfold SentryTracer.startChildWithParentId
  rw [if_neg (by rw [running]; decide)]
  exact ⟨_, ⟨rfl, rfl⟩, rfl⟩

variable (moment) in
theorem Running.startChild (screen : Running initial full start frameDate tracer)
    (running : tracer.tracer.isFinished = false) (activeSpan : Option Nat) (operation : String)
    (description : Option String) :
    (tracer.startChildWithOperation moment activeSpan operation description).tracer.isFinished =
        false ∧
      Running initial full start frameDate
        (tracer.startChildWithOperation moment activeSpan operation description) := by
  obtain ⟨span, -, hstarted⟩ :=
    startChildWithOperation_running moment running activeSpan operation description
  unfold startChildWithOperation
  rw [hstarted]
  refine ⟨running, screen.of_frame (fun timeToDisplay hsome => ⟨timeToDisplay, hsome, rfl, rfl⟩)
    rfl rfl rfl ?_ rfl⟩
  intro position child _ hchild
  obtain ⟨hlength, -⟩ := List.getElem?_eq_some_iff.mp hchild
  exact (List.getElem?_append_left hlength).trans hchild

theorem Running.finishOther (screen : Running initial full start frameDate tracer)
    (running : tracer.tracer.isFinished = false) (captured : tracer.captured = before)
    {position : Nat} (other : position ≠ initial ∧ full ≠ some position)
    (status : SentrySpanStatus) :
    Outcome moment (Running initial full start frameDate) (Ready initial full start) before
      (tracer.finishChildWithStatus moment position status) := by
  have hother : Running initial full start frameDate (tracer.modifyChild position fun span =>
      span.finishWithStatus status (moment.dates position)) := by
    refine screen.of_frame (fun timeToDisplay hsome => ⟨timeToDisplay, hsome, rfl, rfl⟩) rfl rfl
      rfl ?_ rfl
    intro display span hdisplay hspan
    have hne : position ≠ display := by
      rintro rfl
      exact hdisplay.elim other.1 other.2
    rw [child_modifyChild, hspan, Option.map_some, if_neg hne]
  exact hother.canBeFinished moment running captured

/-! Finishing the displays. -/

theorem child_modifyChild_update {position : Nat} {span : SentrySpan}
    (hspan : tracer.child position = some span) (change : SentrySpan → SentrySpan) :
    (tracer.modifyChild position change).child =
      Function.update tracer.child position (some (change span)) := by
  funext other
  rw [child_modifyChild]
  by_cases hother : position = other
  · subst hother
    rw [hspan, Function.update_self, Option.map_some, if_pos rfl]
  · rw [Function.update_of_ne (Ne.symm hother)]
    simp [hother]

theorem Screen.finishInitial (screen : Screen initial full start tracer) {span : SentrySpan}
    (hspan : tracer.child initial = some span) (running : span.isFinished = false)
    {change : SentrySpan → SentrySpan} {date : NSDate} (hends : EndsAt (change span) date)
    (hdate : start.milliseconds ≤ date.milliseconds) :
    Screen initial full start (tracer.modifyChild initial change) := by
  apply screen.modifyChild
  rw [child_modifyChild_update hspan]
  exact screen.spans.finishInitial hspan running hends hdate

theorem Screen.finishFull (screen : Screen initial full start tracer) {position : Nat}
    (hposition : full = some position) {span initialSpan : SentrySpan} {initialDate : NSDate}
    (hspan : tracer.child position = some span) (hinitial : tracer.child initial = some initialSpan)
    (hends : EndsAt initialSpan initialDate) {change : SentrySpan → SentrySpan}
    (finished : (change span).isFinished = true)
    (hdate : (change span).status = .deadlineExceeded ∨
      ∃ date, (change span).timestamp = some date ∧
        initialDate.milliseconds ≤ date.milliseconds) :
    Screen initial full start (tracer.modifyChild position change) := by
  apply screen.modifyChild
  rw [child_modifyChild_update hspan]
  exact screen.spans.finishFull hposition hinitial hends finished hdate

theorem finishWithFrame_eq (newFrameDate : NSDate) (position : Nat) (tracer : DisplayTracer) :
    tracer.finishWithFrame moment newFrameDate position =
      (tracer.modifyChild position fun span =>
        SentrySpan.finishWithStatus { span with timestamp := some newFrameDate } .ok
          (moment.dates position)).canBeFinished moment := by
  unfold finishWithFrame finishChildWithStatus modifyChild
  dsimp only
  rw [List.modify_modify_eq]
  rfl

variable (moment) in
theorem Running.finishInitialDisplay {timeToDisplay : SentryTimeToDisplayTracker}
    (screen : Running timeToDisplay.initialDisplaySpan full start frameDate tracer)
    (running : tracer.tracer.isFinished = false) (captured : tracer.captured = before)
    (hdate : start.milliseconds ≤ frameDate.milliseconds) :
    Outcome moment (Running timeToDisplay.initialDisplaySpan full start frameDate)
      (Ready timeToDisplay.initialDisplaySpan full start) before
      (tracer.finishInitialDisplay moment frameDate timeToDisplay) := by
  unfold DisplayTracer.finishInitialDisplay
  split
  · rename_i hreported
    obtain ⟨span, hspan, -⟩ := screen.screen.spans.initialDisplay
    rw [childIsFinished_of_child hspan] at hreported
    have hframe : Running timeToDisplay.initialDisplaySpan full start frameDate
        (tracer.modifyChild timeToDisplay.initialDisplaySpan fun span =>
          SentrySpan.finishWithStatus { span with timestamp := some frameDate } .ok
            (moment.dates timeToDisplay.initialDisplaySpan)) := by
      constructor
      · exact screen.screen.finishInitial hspan (by simpa using hreported.2) ⟨rfl, rfl⟩ hdate
      · exact screen.lastFrameDate
      · intro ended date hended hends
        rw [child_modifyChild, hspan, Option.map_some, if_pos rfl] at hended
        cases hended
        cases hends.timestamp
        exact Int.le_refl _
    have houtcome := hframe.canBeFinished moment running captured
    rw [← finishWithFrame_eq] at houtcome
    dsimp only
    split
    · exact houtcome
    · apply houtcome.bind removeListener_inert
      intro next hrunning hcaptured hnext
      exact .running hrunning hcaptured (hnext.changeTimeToDisplay fun _ => ⟨rfl, rfl⟩)
  · exact .running running captured screen

theorem Running.finishFullDisplay {timeToDisplay : SentryTimeToDisplayTracker}
    (screen : Running timeToDisplay.initialDisplaySpan timeToDisplay.fullDisplaySpan start
      frameDate tracer)
    (running : tracer.tracer.isFinished = false) (captured : tracer.captured = before) :
    Outcome moment
      (Running timeToDisplay.initialDisplaySpan timeToDisplay.fullDisplaySpan start frameDate)
      (Ready timeToDisplay.initialDisplaySpan timeToDisplay.fullDisplaySpan start) before
      (tracer.finishFullDisplay moment frameDate timeToDisplay) := by
  unfold DisplayTracer.finishFullDisplay
  split
  · rename_i hreported
    split
    · rename_i position hposition
      obtain ⟨hlt, span, hspan, -⟩ := screen.screen.spans.fullDisplay position hposition
      obtain ⟨initialSpan, hinitial, hunended | ⟨initialDate, hends, -⟩⟩ :=
        screen.screen.spans.initialDisplay
      · have hfinished := hreported.2.2.2
        rw [childIsFinished_of_child hinitial, hunended.running] at hfinished
        cases hfinished
      have hframe : Running timeToDisplay.initialDisplaySpan timeToDisplay.fullDisplaySpan start
          frameDate (tracer.modifyChild position fun span =>
            SentrySpan.finishWithStatus { span with timestamp := some frameDate } .ok
              (moment.dates position)) := by
        have hle := screen.frame initialSpan initialDate hinitial hends
        constructor
        · exact screen.screen.finishFull hposition hspan hinitial hends rfl
            (Or.inr ⟨frameDate, rfl, hle⟩)
        · exact screen.lastFrameDate
        · intro span date hspan hends
          rw [child_modifyChild, hinitial, Option.map_some, if_neg hlt.ne'] at hspan
          cases hspan
          exact screen.frame initialSpan date hinitial hends
      have houtcome := hframe.canBeFinished moment running captured
      rwa [← finishWithFrame_eq] at houtcome
    · exact .running running captured screen
  · exact .running running captured screen

theorem Running.finishDisplays {timeToDisplay : SentryTimeToDisplayTracker}
    (screen : Running timeToDisplay.initialDisplaySpan timeToDisplay.fullDisplaySpan start
      frameDate tracer)
    (running : tracer.tracer.isFinished = false) (captured : tracer.captured = before)
    (hdate : start.milliseconds ≤ frameDate.milliseconds) :
    Outcome moment
      (Running timeToDisplay.initialDisplaySpan timeToDisplay.fullDisplaySpan start frameDate)
      (Ready timeToDisplay.initialDisplaySpan timeToDisplay.fullDisplaySpan start) before
      (tracer.finishDisplays moment frameDate timeToDisplay) := by
  have hfull := (screen.finishInitialDisplay moment running captured hdate).bind
    (finishFullDisplay_inert moment frameDate timeToDisplay)
    fun next hrunning hcaptured hnext => hnext.finishFullDisplay hrunning hcaptured
  unfold DisplayTracer.finishDisplays
  dsimp only
  split
  · apply hfull.bind removeListener_inert
    intro next hrunning hcaptured hnext
    exact .running hrunning hcaptured (hnext.changeTimeToDisplay fun _ => ⟨rfl, rfl⟩)
  · exact hfull

theorem Running.newFrame (screen : Running initial full start frameDate tracer)
    (running : tracer.tracer.isFinished = false) (captured : tracer.captured = before)
    {newFrameDate : NSDate} (hdate : start.milliseconds ≤ newFrameDate.milliseconds)
    (hlater : frameDate.milliseconds ≤ newFrameDate.milliseconds) :
    Outcome moment (Running initial full start newFrameDate) (Ready initial full start) before
      (tracer.framesTrackerHasNewFrame moment newFrameDate) := by
  have hnext : Running initial full start newFrameDate
      { tracer with lastFrameDate := newFrameDate } := by
    refine ⟨screen.screen.of_frame (fun timeToDisplay hsome => ⟨timeToDisplay, hsome, rfl, rfl⟩)
      rfl rfl rfl screen.screen.spans, rfl, fun span date hspan hends => ?_⟩
    exact Int.le_trans (screen.frame span date hspan hends) hlater
  obtain ⟨timeToDisplay, hsome, rfl, rfl⟩ := screen.screen.timeToDisplay
  unfold framesTrackerHasNewFrame
  dsimp only
  split
  · exact .running running captured hnext
  · rename_i timeToDisplay' hsome'
    cases hsome.symm.trans hsome'
    split
    · exact hnext.finishDisplays running captured hdate
    · exact .running running captured hnext

/-! The deadline. -/

/-- The loop of the deadline has finished the children up to a position. -/
structure Closing (initial : Nat) (full : Option Nat) (start : NSDate) (count : Nat)
    (tracer : DisplayTracer) : Prop where
  screen : Screen initial full start tracer
  closed : ∀ position < count, ∀ span, tracer.child position = some span → span.isFinished = true

theorem Closing.screen_finish {position : Nat}
    (closing : Closing initial full start position tracer) (clock : ClockInOrder moment start)
    (running : ∀ span, tracer.child position = some span → span.isFinished = false) :
    Screen initial full start (tracer.modifyChild position fun span =>
      span.finishWithStatus .deadlineExceeded (moment.dates position)) := by
  by_cases hinitial : position = initial
  · subst hinitial
    obtain ⟨span, hspan, hunended | ⟨date, hends, -⟩⟩ := closing.screen.spans.initialDisplay
    · have hends : EndsAt (span.finishWithStatus .deadlineExceeded (moment.dates position))
          (moment.dates position) := by
        refine ⟨rfl, ?_⟩
        rw [SentrySpan.finishWithStatus, hunended.timestamp]
        rfl
      exact closing.screen.finishInitial hspan hunended.running hends (clock.dates position)
    · have hrunning := running span hspan
      rw [hends.finished] at hrunning
      cases hrunning
  by_cases hfull : full = some position
  · obtain ⟨hlt, span, hspan, -⟩ := closing.screen.spans.fullDisplay position hfull
    obtain ⟨initialSpan, hinitialSpan, hunended | ⟨date, hends, -⟩⟩ :=
      closing.screen.spans.initialDisplay
    · have hclosed := closing.closed initial hlt initialSpan hinitialSpan
      rw [hunended.running] at hclosed
      cases hclosed
    · exact closing.screen.finishFull hfull hspan hinitialSpan hends rfl (Or.inl rfl)
  · exact closing.screen.modifyOther ⟨hinitial, hfull⟩ _

theorem Closing.finishUnlessFinished {position : Nat}
    (closing : Closing initial full start position tracer) (clock : ClockInOrder moment start)
    (running : tracer.tracer.isFinished = false) (captured : tracer.captured = before) :
    Outcome moment (Closing initial full start (position + 1)) (Ready initial full start) before
      (tracer.finishUnlessFinished moment .deadlineExceeded position) := by
  unfold DisplayTracer.finishUnlessFinished
  split
  · rename_i hfinished
    refine .running running captured ⟨closing.screen, fun other hother span hspan => ?_⟩
    rcases Nat.lt_succ_iff_lt_or_eq.mp hother with hlt | rfl
    · exact closing.closed other hlt span hspan
    · rwa [childIsFinished_of_child hspan] at hfinished
  · rename_i hfinished
    have hrunning : ∀ span, tracer.child position = some span → span.isFinished = false := by
      intro span hspan
      rw [childIsFinished_of_child hspan] at hfinished
      simpa using hfinished
    have hnext := closing.screen_finish clock hrunning
    unfold finishChildWithStatus
    refine canBeFinished_outcome ?_ ?_ ⟨hnext, fun other hother span hspan => ?_⟩ hnext.ready
    · exact running
    · exact captured
    rw [child_modifyChild] at hspan
    obtain ⟨first, hfirst, rfl⟩ := Option.map_eq_some_iff.mp hspan
    by_cases heq : position = other
    · rw [if_pos heq]
      rfl
    · rw [if_neg heq]
      exact closing.closed other (by omega) first hfirst

theorem Closing.foldl (closing : Closing initial full start 0 tracer)
    (clock : ClockInOrder moment start) (running : tracer.tracer.isFinished = false)
    (captured : tracer.captured = before) (count : Nat) :
    Outcome moment (Closing initial full start count) (Ready initial full start) before
      ((List.range count).foldl (DisplayTracer.finishUnlessFinished moment .deadlineExceeded)
        tracer) := by
  induction count with
  | zero => exact .running running captured closing
  | succ count ih =>
    rw [List.range_succ, List.foldl_append, List.foldl_cons, List.foldl_nil]
    apply ih.bind (finishUnlessFinished_inert moment .deadlineExceeded count)
    intro next hrunning hcaptured hnext
    exact hnext.finishUnlessFinished clock hrunning hcaptured

theorem Running.deadlineTimerFired (screen : Running initial full start frameDate tracer)
    (clock : ClockInOrder moment start) (running : tracer.tracer.isFinished = false)
    (captured : tracer.captured = before) :
    Outcome moment (Running initial full start frameDate) (Ready initial full start) before
      (tracer.deadlineTimerFired moment) := by
  have hclosing : Closing initial full start 0 tracer :=
    ⟨screen.screen, fun _ hposition => absurd hposition (Nat.not_lt_zero _)⟩
  have hlength : ∀ position, full = some position → position < tracer.tracer.children.length := by
    intro position hposition
    obtain ⟨-, span, hspan, -⟩ := screen.screen.spans.fullDisplay position hposition
    exact (List.getElem?_eq_some_iff.mp hspan).1
  have hloop := hclosing.foldl clock running captured tracer.tracer.children.length
  unfold DisplayTracer.deadlineTimerFired
  rw [if_neg (by rw [running]; decide)]
  have hstatus : Inert fun tracer : DisplayTracer =>
      { tracer with tracer.finishStatus := .deadlineExceeded } :=
    fun _ finished => ⟨finished, rfl⟩
  apply hloop.bind (hstatus.comp (finishInternal_inert moment))
  intro next hrunning hcaptured hnext
  have hready : Ready initial full start
      { next with tracer.finishStatus := .deadlineExceeded } := by
    refine ⟨hnext.screen.of_frame (fun timeToDisplay hsome => ⟨timeToDisplay, hsome, rfl, rfl⟩) rfl
      rfl rfl hnext.screen.spans, fun position hposition => ?_⟩
    obtain ⟨-, span, hspan, -⟩ := hnext.screen.spans.fullDisplay position hposition
    exact (childIsFinished_of_child hspan).trans
      (hnext.closed position (hlength position hposition) span hspan)
  refine finishInternal_outcome ?_ ?_ hready
  · exact hrunning
  · exact hcaptured

end Steps

/-! Runs. -/

/-- Frames come in order, and nothing is dated before the start. -/
def InOrder (tracer : DisplayTracer) (input : DisplayEvent × Moment) : Prop :=
  ClockInOrder input.2 tracer.tracer.span.startTimestamp ∧
    match input.1 with
    | .newFrame newFrameDate =>
      tracer.tracer.span.startTimestamp.milliseconds ≤ newFrameDate.milliseconds ∧
        tracer.lastFrameDate.milliseconds ≤ newFrameDate.milliseconds
    | _ => True

/-- While the tracer runs nothing is handed over; what has been is displayed. -/
inductive Inv (initial : Nat) (full : Option Nat) (tracer : DisplayTracer) : Prop
  | running (running : tracer.tracer.isFinished = false) (captured : tracer.captured = [])
      (screen : Running initial full tracer.tracer.span.startTimestamp tracer.lastFrameDate tracer)
  | finished (finished : tracer.tracer.isFinished = true)
      (displayed : ∀ captured ∈ tracer.captured, Displayed initial full captured)

section Runs
variable {moment : Moment} {initial : Nat} {full : Option Nat} {start frameDate : NSDate}
  {tracer tracer' : DisplayTracer}

theorem Outcome.inv (clock : ClockInOrder moment start)
    (h : Outcome moment (Running initial full start frameDate) (Ready initial full start) []
      tracer) : Inv initial full tracer := by
  cases h with
  | running running captured screen =>
    apply Inv.running running captured
    rw [screen.screen.startTimestamp, screen.lastFrameDate]
    exact screen
  | discarded finished captured =>
    exact .finished finished (by rw [captured]; simp)
  | handedOver finished entry ready transaction hands captured =>
    apply Inv.finished finished
    rw [captured]
    simpa using ready.displayed hands clock

theorem startChildWithOperation_inert (activeSpan : Option Nat) (operation : String)
    (description : Option String) :
    Inert (startChildWithOperation moment activeSpan operation description) := by
  intro tracer finished
  unfold startChildWithOperation
  rw [SentryTracer.startChildWithOperation_finished moment finished]
  exact ⟨finished, rfl⟩

theorem finishWithStatus_inert (status : SentrySpanStatus) :
    Inert (finishWithStatus moment status) := by
  have hcalled : Inert fun tracer : DisplayTracer =>
      { tracer with tracer.wasFinishCalled := true, tracer.finishStatus := status } :=
    fun _ finished => ⟨finished, rfl⟩
  exact hcalled.comp (canBeFinished_inert moment)

theorem deadlineTimerFired_inert : Inert (deadlineTimerFired moment) := by
  intro tracer finished
  unfold deadlineTimerFired
  rw [if_pos finished]
  exact ⟨finished, rfl⟩

theorem step_finished {input : DisplayEvent × Moment} (finished : tracer.tracer.isFinished = true)
    (h : tracer.step input = some tracer') :
    tracer'.tracer.isFinished = true ∧ tracer'.captured = tracer.captured := by
  obtain ⟨event, moment⟩ := input
  cases event with
  | startChild activeSpan operation description =>
    cases h
    exact startChildWithOperation_inert activeSpan operation description tracer finished
  | finishChild position status =>
    obtain ⟨-, heq⟩ := Option.ite_none_right_eq_some.mp h
    cases heq
    exact finishChildWithStatus_inert moment position status tracer finished
  | finishWithStatus status =>
    cases h
    exact finishWithStatus_inert status tracer finished
  | setStatus status =>
    cases h
    exact ⟨finished, rfl⟩
  | reportInitialDisplay =>
    cases h
    exact ⟨finished, rfl⟩
  | reportFullyDisplayed =>
    cases h
    exact ⟨finished, rfl⟩
  | fullyDisplayedBlock =>
    obtain ⟨-, heq⟩ := Option.ite_none_right_eq_some.mp h
    cases heq
    exact ⟨finished, rfl⟩
  | newFrame newFrameDate =>
    cases h
    exact framesTrackerHasNewFrame_inert moment newFrameDate tracer finished
  | idleTimeout =>
    obtain ⟨-, heq⟩ := Option.ite_none_right_eq_some.mp h
    cases heq
    exact finishInternal_inert moment tracer finished
  | deadlineTimer =>
    obtain ⟨-, heq⟩ := Option.ite_none_right_eq_some.mp h
    cases heq
    exact deadlineTimerFired_inert tracer finished

theorem Inv.step {input : DisplayEvent × Moment} (inv : Inv initial full tracer)
    (order : InOrder tracer input) (h : tracer.step input = some tracer') :
    Inv initial full tracer' := by
  cases inv with
  | finished finished displayed =>
    obtain ⟨hfinished, hcaptured⟩ := step_finished finished h
    exact .finished hfinished (hcaptured ▸ displayed)
  | running running captured screen =>
    obtain ⟨event, moment⟩ := input
    obtain ⟨clock, hevent⟩ := order
    have hframe : ∀ {next : DisplayTracer}, next.tracer.isFinished = false → next.captured = [] →
        Running initial full tracer.tracer.span.startTimestamp tracer.lastFrameDate next →
          Inv initial full next :=
      fun hrunning hcaptured hnext => Outcome.inv clock (.running hrunning hcaptured hnext)
    cases event with
    | startChild activeSpan operation description =>
      cases h
      obtain ⟨hrunning, hnext⟩ :=
        screen.startChild moment running activeSpan operation description
      exact hframe hrunning captured hnext
    | finishChild position status =>
      obtain ⟨⟨-, hother⟩, heq⟩ := Option.ite_none_right_eq_some.mp h
      cases heq
      obtain ⟨timeToDisplay, hsome, hinitial, hfull⟩ := screen.screen.timeToDisplay
      rw [isDisplaySpan, hsome, Option.any_some, hinitial, hfull, decide_eq_true_eq, not_or]
        at hother
      exact (screen.finishOther running captured ⟨Ne.symm hother.1, hother.2⟩ status).inv clock
    | finishWithStatus status =>
      cases h
      have hcalled : Running initial full tracer.tracer.span.startTimestamp tracer.lastFrameDate
          { tracer with tracer.wasFinishCalled := true, tracer.finishStatus := status } :=
        screen.of_frame (fun timeToDisplay hsome => ⟨timeToDisplay, hsome, rfl, rfl⟩) rfl rfl rfl
          (fun _ _ _ hspan => hspan) rfl
      exact (hcalled.canBeFinished moment running captured).inv clock
    | setStatus status =>
      cases h
      exact hframe running captured (screen.of_frame
        (fun timeToDisplay hsome => ⟨timeToDisplay, hsome, rfl, rfl⟩) rfl rfl rfl
          (fun _ _ _ hspan => hspan) rfl)
    | reportInitialDisplay =>
      cases h
      exact hframe running captured (screen.changeTimeToDisplay fun _ => ⟨rfl, rfl⟩)
    | reportFullyDisplayed =>
      cases h
      exact hframe running captured (screen.of_frame
        (fun timeToDisplay hsome => ⟨timeToDisplay, hsome, rfl, rfl⟩) rfl rfl rfl
          (fun _ _ _ hspan => hspan) rfl)
    | fullyDisplayedBlock =>
      obtain ⟨-, heq⟩ := Option.ite_none_right_eq_some.mp h
      cases heq
      have hqueue : Running initial full tracer.tracer.span.startTimestamp tracer.lastFrameDate
          { tracer with queuedReports := tracer.queuedReports - 1 } :=
        screen.of_frame (fun timeToDisplay hsome => ⟨timeToDisplay, hsome, rfl, rfl⟩) rfl rfl rfl
          (fun _ _ _ hspan => hspan) rfl
      exact hframe running captured (hqueue.changeTimeToDisplay fun _ => ⟨rfl, rfl⟩)
    | newFrame newFrameDate =>
      cases h
      exact (screen.newFrame running captured hevent.1 hevent.2).inv clock
    | idleTimeout =>
      obtain ⟨hidle, -⟩ := Option.ite_none_right_eq_some.mp h
      rw [screen.screen.idleTimeout] at hidle
      cases hidle
    | deadlineTimer =>
      obtain ⟨-, heq⟩ := Option.ite_none_right_eq_some.mp h
      cases heq
      exact (screen.deadlineTimerFired clock running captured).inv clock

/-- The transaction of a view controller before the tracker starts. -/
structure ViewControllerTransaction (tracer : DisplayTracer) : Prop where
  running : tracer.tracer.isFinished = false
  waitForChildren : tracer.tracer.configuration.waitForChildren = true
  idleTimeout : tracer.tracer.configuration.idleTimeout = 0
  captured : tracer.captured = []

theorem Inv.of_unended (running : tracer.tracer.isFinished = false) (captured : tracer.captured = [])
    (timeToDisplay : ∃ timeToDisplay, tracer.timeToDisplay = some timeToDisplay ∧
      timeToDisplay.initialDisplaySpan = initial ∧ timeToDisplay.fullDisplaySpan = full)
    (finishCallback : tracer.tracer.finishCallback = true)
    (waitForChildren : tracer.tracer.configuration.waitForChildren = true)
    (idleTimeout : tracer.tracer.configuration.idleTimeout = 0)
    (initialDisplay : ∃ span, tracer.child initial = some span ∧ Unended span)
    (fullDisplay : ∀ position, full = some position → initial < position ∧
      ∃ span, tracer.child position = some span ∧ Unended span) : Inv initial full tracer := by
  have hidle : tracer.tracer.hasIdleTimeout = false := by
    unfold SentryTracer.hasIdleTimeout
    rw [idleTimeout]
    rfl
  obtain ⟨span, hspan, hunended⟩ := initialDisplay
  apply Inv.running running captured
  refine ⟨⟨timeToDisplay, finishCallback, waitForChildren, hidle, rfl,
    ⟨⟨span, hspan, Or.inl hunended⟩, fun position hposition => ?_⟩⟩, rfl, ?_⟩
  · obtain ⟨hlt, fullSpan, hfullSpan, hfullUnended⟩ := fullDisplay position hposition
    exact ⟨hlt, fullSpan, hfullSpan, Or.inl hfullUnended⟩
  · intro ended date hended hends
    cases hspan.symm.trans hended
    have hrunning := hunended.running
    rw [hends.finished] at hrunning
    cases hrunning

theorem Unended.startWithTracer {position other : Nat}
    (h : ∃ span, tracer.child position = some span ∧ Unended span) :
    ∃ span, (tracer.startWithTracer other).child position = some span ∧ Unended span := by
  obtain ⟨span, hspan, hunended⟩ := h
  rw [child_startWithTracer, hspan, Option.map_some]
  split
  · exact ⟨_, rfl, hunended.running, hunended.timestamp⟩
  · exact ⟨span, rfl, hunended⟩

variable (moment) in
/-- A child starts behind the others. -/
theorem startChildWithOperation_appends (tracer : DisplayTracer)
    (running : tracer.tracer.isFinished = false)
    (activeSpan : Option Nat) (operation : String) (description : Option String) :
    ∃ span, Unended span ∧
      tracer.startChildWithOperation moment activeSpan operation description =
        { tracer with tracer.children := tracer.tracer.children ++ [span] } := by
  obtain ⟨span, hunended, hspan⟩ :=
    startChildWithOperation_running moment running activeSpan operation description
  refine ⟨span, hunended, ?_⟩
  rw [startChildWithOperation, hspan]

theorem startForTracer_inv (transaction : ViewControllerTransaction tracer)
    (controllerName : String) (waitForFullDisplay : Bool) (activeSpan : Option Nat) :
    Inv tracer.tracer.children.length
      (if waitForFullDisplay then some (tracer.tracer.children.length + 1) else none)
      (tracer.startForTracer moment controllerName waitForFullDisplay activeSpan) := by
  obtain ⟨span, hunended, hinitial⟩ := startChildWithOperation_appends moment tracer
    transaction.running activeSpan "ui.load.initial_display"
    (some (controllerName ++ " initial display"))
  have hspan : ({ tracer with tracer.children := tracer.tracer.children ++ [span] } :
      DisplayTracer).child tracer.tracer.children.length = some span := by
    simp [child]
  unfold startForTracer
  rw [hinitial]
  cases waitForFullDisplay with
  | false =>
    refine Inv.of_unended ?_ ?_ ⟨_, rfl, rfl, rfl⟩ rfl ?_ ?_ ?_ ?_
    · exact transaction.running
    · exact transaction.captured
    · exact transaction.waitForChildren
    · exact transaction.idleTimeout
    · exact Unended.startWithTracer ⟨span, hspan, hunended⟩
    · exact fun _ hposition => by cases hposition
  | true =>
    obtain ⟨fullSpan, hfullUnended, hfull⟩ := startChildWithOperation_appends moment
      { tracer with tracer.children := tracer.tracer.children ++ [span] }
      transaction.running activeSpan "ui.load.full_display"
      (some (controllerName ++ " full display"))
    dsimp only
    rw [hfull]
    refine Inv.of_unended ?_ ?_ ⟨_, rfl, rfl, ?_⟩ rfl ?_ ?_ ?_ ?_
    · exact transaction.running
    · exact transaction.captured
    · simp
    · exact transaction.waitForChildren
    · exact transaction.idleTimeout
    · apply Unended.startWithTracer
      apply Unended.startWithTracer
      refine ⟨span, ?_, hunended⟩
      simp [child]
    · intro position hposition
      cases hposition
      refine ⟨Nat.lt_succ_self _, ?_⟩
      apply Unended.startWithTracer
      apply Unended.startWithTracer
      refine ⟨fullSpan, ?_, hfullUnended⟩
      simp [child]

end Runs

theorem Inv.displayed {initial : Nat} {full : Option Nat} {tracer : DisplayTracer}
    (inv : Inv initial full tracer) :
    ∀ captured ∈ tracer.captured, Displayed initial full captured := by
  cases inv with
  | running _ captured _ => simp [captured]
  | finished _ displayed => exact displayed

/-- In every order of the reports, the frames, the other children, the finish and the deadline
the transaction has its displays finished in order and measured from its start. -/
theorem always_displayed {tracer : DisplayTracer} (transaction : ViewControllerTransaction tracer)
    (moment : Moment) (controllerName : String) (waitForFullDisplay : Bool)
    (activeSpan : Option Nat) {inputs : List (DisplayEvent × Moment)}
    (order : Allowed step InOrder
      (tracer.startForTracer moment controllerName waitForFullDisplay activeSpan) inputs) :
    Always step (fun tracer' => ∀ captured ∈ tracer'.captured,
        Displayed tracer.tracer.children.length
          (if waitForFullDisplay then some (tracer.tracer.children.length + 1) else none) captured)
      (tracer.startForTracer moment controllerName waitForFullDisplay activeSpan) inputs :=
  always_of_allowed (fun _ inv => inv.displayed) (fun _ _ _ inv order h => inv.step order h)
    (startForTracer_inv transaction controllerName waitForFullDisplay activeSpan) order

/-- Finish is called before the screen is fully displayed. -/
def fullDisplayRun : List (DisplayEvent × Moment) :=
  [(.reportInitialDisplay, momentAt 5), (.newFrame ⟨10⟩, momentAt 10),
    (.reportFullyDisplayed, momentAt 15), (.finishWithStatus .ok, momentAt 20),
    (.fullyDisplayedBlock, momentAt 25), (.newFrame ⟨30⟩, momentAt 30)]

theorem clockInOrder_momentAt (milliseconds : ℤ) (h : 0 ≤ milliseconds + 1) :
    ClockInOrder (momentAt milliseconds) ⟨0⟩ :=
  ⟨fun _ => h, fun _ hmeasurement => by cases hmeasurement⟩

theorem always_displayed_fullDisplayRun :
    Always step (fun tracer' => ∀ captured ∈ tracer'.captured, Displayed 0 (some 1) captured)
      ((initWithTracer ⟨true, true, 0⟩).startForTracer (momentAt 0) "Screen" true none)
      fullDisplayRun := by
  have transaction : ViewControllerTransaction (initWithTracer ⟨true, true, 0⟩) :=
    ⟨rfl, rfl, rfl, rfl⟩
  apply always_displayed transaction (momentAt 0) "Screen" true none
  rintro _ ⟨⟩
  refine ⟨⟨clockInOrder_momentAt 5 (by decide), trivial⟩, ?_⟩
  rintro _ ⟨⟩
  refine ⟨⟨clockInOrder_momentAt 10 (by decide), by decide⟩, ?_⟩
  rintro _ ⟨⟩
  refine ⟨⟨clockInOrder_momentAt 15 (by decide), trivial⟩, ?_⟩
  rintro _ ⟨⟩
  refine ⟨⟨clockInOrder_momentAt 20 (by decide), trivial⟩, ?_⟩
  rintro _ ⟨⟩
  refine ⟨⟨clockInOrder_momentAt 25 (by decide), trivial⟩, ?_⟩
  rintro _ ⟨⟩
  refine ⟨⟨clockInOrder_momentAt 30 (by decide), by decide⟩, ?_⟩
  exact trivial

end SentryCocoa.Tracer.DisplayTracer
