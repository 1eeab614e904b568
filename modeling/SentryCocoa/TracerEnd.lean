import SentryCocoa.FinishCallback

/-! The end of an auto-generated transaction. The tracer ends with its last child, whatever
finishes it; of the children that were finished only the full display can get another end. -/
namespace SentryCocoa.Tracer
open SentryCocoa.Foundation SentryCocoa.Session SentryCocoa.Library.Machine

/-- One of the dates, and no other is later. -/
structure IsLatest (dates : NSDate → Prop) (date : NSDate) : Prop where
  among : dates date
  latest : ∀ other, dates other → other.milliseconds ≤ date.milliseconds

namespace SentryTracer
variable (moment : Moment)

def laterEnd (oldest : NSDate) (childSpan : SentrySpan) : NSDate :=
  match childSpan.timestamp with
  | some timestamp => if oldest.milliseconds < timestamp.milliseconds then timestamp else oldest
  | none => oldest

theorem laterEnd_latest (start : NSDate) (childSpan : SentrySpan) :
    IsLatest (fun date => date = start ∨ childSpan.timestamp = some date)
      (laterEnd start childSpan) := by
  unfold laterEnd
  cases childSpan.timestamp with
  | none => exact ⟨Or.inl rfl, by simp⟩
  | some timestamp =>
    dsimp only
    split
    · rename_i hlater
      refine ⟨Or.inr rfl, ?_⟩
      rintro other (rfl | heq)
      · exact Int.le_of_lt hlater
      · exact (Option.some.inj heq) ▸ Int.le_refl _
    · rename_i hlater
      refine ⟨Or.inl rfl, ?_⟩
      rintro other (rfl | heq)
      · exact Int.le_refl _
      · exact (Option.some.inj heq) ▸ Int.not_lt.mp hlater

/-- Trimming compares the start with the ends of the children. -/
theorem foldl_laterEnd_latest (children : List SentrySpan) (start : NSDate) :
    IsLatest (fun date => date = start ∨ ∃ span ∈ children, span.timestamp = some date)
      (children.foldl laterEnd start) := by
  induction children generalizing start with
  | nil => exact ⟨Or.inl rfl, by simp⟩
  | cons child children ih =>
    have hchild := laterEnd_latest start child
    have hrest := ih (laterEnd start child)
    rw [List.foldl_cons]
    constructor
    · rcases hrest.among with heq | ⟨span, hspan, htimestamp⟩
      · rw [heq]
        refine hchild.among.imp_right fun htimestamp => ?_
        exact ⟨child, List.mem_cons_self, htimestamp⟩
      · exact Or.inr ⟨span, List.mem_cons_of_mem child hspan, htimestamp⟩
    · rintro other (rfl | ⟨span, hspan, htimestamp⟩)
      · exact Int.le_trans (hchild.latest other (Or.inl rfl)) (hrest.latest _ (Or.inl rfl))
      · cases List.mem_cons.mp hspan with
        | inl heq =>
          subst heq
          exact Int.le_trans (hchild.latest other (Or.inr htimestamp))
            (hrest.latest _ (Or.inl rfl))
        | inr hmem => exact hrest.latest other (Or.inr ⟨span, hmem, htimestamp⟩)

theorem closeChildren_range (status : SentrySpanStatus) (timestamp : Option NSDate) (count : Nat)
    (children : List SentrySpan) (position : Nat) :
    (closeChildren moment status timestamp (List.range count) children)[position]? =
      children[position]?.map fun span =>
        if position < count then closeChild moment status timestamp position span else span := by
  induction count with
  | zero => simp [closeChildren]
  | succ count ih =>
    unfold closeChildren at ih ⊢
    rw [List.range_succ, List.foldl_append, List.foldl_cons, List.foldl_nil, List.getElem?_modify,
      ih]
    cases children[position]? with
    | none => rfl
    | some span =>
      simp only [Option.map_some]
      rcases Nat.lt_trichotomy position count with hlt | heq | hgt
      · simp [hlt, hlt.ne', Nat.lt_succ_of_lt hlt]
      · simp [heq]
      · simp [hgt.ne, hgt.le.not_gt, (Nat.succ_le_of_lt hgt).not_gt]

theorem finishChildren_child (status : SentrySpanStatus) {tracer : SentryTracer}
    (finished : tracer.isFinished = true) (position : Nat) :
    (tracer.finishChildren moment (canBeFinished moment) status).children[position]? =
      tracer.children[position]?.map (closeChild moment status tracer.span.timestamp position) := by
  unfold finishChildren
  rw [foldl_finishUnfinishedChild moment (canBeFinished_quiet moment) status _ finished]
  have hclosed : (closeChildren moment status tracer.span.timestamp
      (List.range tracer.children.length) tracer.children)[position]? =
        tracer.children[position]?.map
          (closeChild moment status tracer.span.timestamp position) := by
    rw [closeChildren_range]
    by_cases hposition : position < tracer.children.length
    · simp [hposition]
    · simp [List.getElem?_eq_none (not_lt.mp hposition)]
  dsimp only
  split
  · exact hclosed
  · exact hclosed

theorem finishChildren_start (status : SentrySpanStatus) {tracer : SentryTracer}
    (finished : tracer.isFinished = true) :
    (tracer.finishChildren moment (canBeFinished moment) status).span.startTimestamp =
      tracer.span.startTimestamp := by
  unfold finishChildren
  rw [foldl_finishUnfinishedChild moment (canBeFinished_quiet moment) status _ finished]
  dsimp only
  split <;> rfl

/-- The end of an auto-generated transaction, once its children are finished. -/
theorem finishChildren_span (status : SentrySpanStatus) {tracer : SentryTracer}
    (finished : tracer.isFinished = true) (auto : tracer.isAutoGeneratedTransaction = true) :
    (tracer.finishChildren moment (canBeFinished moment) status).span =
      { tracer.span with
        timestamp := some ((tracer.finishChildren moment (canBeFinished moment)
          status).children.foldl laterEnd tracer.span.startTimestamp) } := by
  unfold finishChildren
  rw [foldl_finishUnfinishedChild moment (canBeFinished_quiet moment) status _ finished]
  dsimp only
  split
  · rfl
  · rename_i hauto
    exact absurd auto hauto

end SentryTracer

namespace DisplayTracer
variable (moment : Moment)

/-- What a callback makes of a child, if the tracer has one for its displays. -/
def spanAfterCallback (called : Bool) (tracer : DisplayTracer) (startTimestamp : NSDate)
    (position : Nat) (span : SentrySpan) : SentrySpan :=
  match tracer.timeToDisplay with
  | some timeToDisplay =>
    if called then
      calledBackSpan moment timeToDisplay startTimestamp (tracer.initialEnd moment timeToDisplay)
        position span
    else span
  | none => span

theorem callBack_changed (called : Bool) (tracer : DisplayTracer)
    (finished : tracer.tracer.isFinished = true) :
    ChildrenChanged tracer (tracer.callBack moment called) := by
  unfold callBack
  split
  · split
    · exact finishCallback_changed moment _ finished
    · exact .refl tracer
  · exact .refl tracer

theorem callBack_child (called : Bool) {tracer : DisplayTracer}
    (finished : tracer.tracer.isFinished = true) (position : Nat) :
    (tracer.callBack moment called).child position = (tracer.child position).map
      (tracer.spanAfterCallback moment called tracer.tracer.span.startTimestamp position) := by
  unfold callBack spanAfterCallback
  cases tracer.timeToDisplay with
  | none => exact Option.map_id'.symm
  | some timeToDisplay =>
    cases called with
    | false => exact Option.map_id'.symm
    | true => exact finishCallback_child moment timeToDisplay finished position

/-! The tracer up to the children that are left. -/

/-- The start after the adjustment to the start of the app. -/
def finalStart (tracer : DisplayTracer) : NSDate :=
  (moment.appStartMeasurement.map SentryAppStartMeasurement.appStartTimestamp).getD
    tracer.tracer.span.startTimestamp

/-- The end before trimming. -/
def untrimmedEnd (tracer : DisplayTracer) : NSDate := tracer.tracer.span.timestamp.getD moment.date

theorem tracerFinishSelf_eq (shouldCleanUp : Bool) (tracer : DisplayTracer) :
    ∃ finishStatus finishCallback,
      tracer.tracer.finishSelf moment (SentryTracer.canBeFinished moment) shouldCleanUp =
        { tracer.tracer with
          span := { tracer.tracer.span.finishWithStatus finishStatus moment.date with
            startTimestamp := tracer.finalStart moment }
          finishStatus := finishStatus
          finishCallback := finishCallback } := by
  unfold SentryTracer.finishSelf SentryTracer.spanFinished finalStart
  cases moment.appStartMeasurement with
  | none => cases shouldCleanUp <;> exact ⟨_, _, rfl⟩
  | some measurement => cases shouldCleanUp <;> exact ⟨_, _, rfl⟩

/-- The tracer itself after it has finished and called back. -/
structure SelfFinished (tracer tracer' : DisplayTracer) : Prop where
  finished : tracer'.tracer.isFinished = true
  captured : tracer'.captured = tracer.captured
  start : tracer'.tracer.span.startTimestamp = tracer.finalStart moment
  timestamp : tracer'.tracer.span.timestamp = some (tracer.untrimmedEnd moment)
  configuration : tracer'.tracer.configuration = tracer.tracer.configuration

theorem finishSelf_spec (shouldCleanUp : Bool) (tracer : DisplayTracer) :
    SelfFinished moment tracer (tracer.finishSelf moment shouldCleanUp) := by
  obtain ⟨finishStatus, finishCallback, hself⟩ := tracerFinishSelf_eq moment shouldCleanUp tracer
  have hcalled := callBack_changed moment (shouldCleanUp && tracer.tracer.finishCallback)
    { tracer with
      tracer := tracer.tracer.finishSelf moment (SentryTracer.canBeFinished moment) shouldCleanUp }
    (SentryTracer.finishSelf_finished moment _ shouldCleanUp tracer.tracer)
  unfold DisplayTracer.finishSelf
  constructor
  · rw [hcalled.frame, hself]
    rfl
  · exact hcalled.captured
  · rw [hcalled.frame, hself]
  · rw [hcalled.frame, hself]
    rfl
  · rw [hcalled.frame, hself]

theorem finishSelf_child (shouldCleanUp : Bool) (tracer : DisplayTracer) (position : Nat) :
    (tracer.finishSelf moment shouldCleanUp).child position =
      (tracer.child position).map (tracer.spanAfterCallback moment
        (shouldCleanUp && tracer.tracer.finishCallback) (tracer.finalStart moment) position) := by
  obtain ⟨finishStatus, finishCallback, hself⟩ := tracerFinishSelf_eq moment shouldCleanUp tracer
  unfold DisplayTracer.finishSelf
  rw [callBack_child moment _
    (SentryTracer.finishSelf_finished moment _ shouldCleanUp tracer.tracer), hself]
  rfl

/-- The tracker that the tracer calls back, if there is one. -/
def CallsBack (tracer : DisplayTracer) (timeToDisplay : SentryTimeToDisplayTracker) : Prop :=
  tracer.tracer.finishCallback = true ∧ tracer.timeToDisplay = some timeToDisplay

section Measurements
variable {tracer : DisplayTracer} {timeToDisplay : SentryTimeToDisplayTracker}

theorem finishSelf_of_callsBack (calls : tracer.CallsBack timeToDisplay) :
    tracer.finishSelf moment true = ({ tracer with
      tracer := tracer.tracer.finishSelf moment (SentryTracer.canBeFinished moment) true } :
        DisplayTracer).finishCallback moment timeToDisplay := by
  unfold DisplayTracer.finishSelf callBack
  dsimp only
  rw [calls.2, calls.1]
  rfl

theorem finishSelf_initialMeasurement (calls : tracer.CallsBack timeToDisplay)
    {span : SentrySpan} (hspan : tracer.child timeToDisplay.initialDisplaySpan = some span) :
    (tracer.finishSelf moment true).measurements.objectForKey "time_to_initial_display" =
      some (durationMilliseconds (calledBackInitialSpan moment timeToDisplay
        (tracer.finalStart moment) timeToDisplay.initialDisplaySpan span)) := by
  obtain ⟨finishStatus, finishCallback, hself⟩ := tracerFinishSelf_eq moment true tracer
  rw [finishSelf_of_callsBack moment calls, hself]
  exact finishCallback_initialMeasurement moment rfl hspan

theorem finishSelf_fullMeasurement (calls : tracer.CallsBack timeToDisplay) {position : Nat}
    (full : timeToDisplay.fullDisplaySpan = some position) {span : SentrySpan}
    (hspan : tracer.child position = some span) :
    (tracer.finishSelf moment true).measurements.objectForKey "time_to_full_display" =
      some (durationMilliseconds (calledBackSpan moment timeToDisplay (tracer.finalStart moment)
        (tracer.initialEnd moment timeToDisplay) position span)) := by
  obtain ⟨finishStatus, finishCallback, hself⟩ := tracerFinishSelf_eq moment true tracer
  rw [finishSelf_of_callsBack moment calls, hself]
  exact finishCallback_fullMeasurement moment rfl full hspan

end Measurements

/-- A tracer that finishes is discarded, or its children are finished next. -/
theorem finishTracer_cases (status : SentrySpanStatus) (shouldCleanUp : Bool)
    {tracer : DisplayTracer} (running : tracer.tracer.isFinished = false) :
    ∃ isSpanOfScope,
      tracer.finishTracer moment status shouldCleanUp =
        ({ tracer.finishSelf moment shouldCleanUp with
            tracer.isSpanOfScope := isSpanOfScope }, true) ∨
      tracer.finishTracer moment status shouldCleanUp =
        ({ tracer.finishSelf moment shouldCleanUp with
            tracer := SentryTracer.finishChildren moment (SentryTracer.canBeFinished moment) status
              { (tracer.finishSelf moment shouldCleanUp).tracer with
                isSpanOfScope := isSpanOfScope } }, false) := by
  unfold finishTracer
  rw [if_neg (by rw [running]; decide)]
  generalize tracer.finishSelf moment shouldCleanUp = self
  dsimp only
  have hscope : ∃ isSpanOfScope, (if shouldCleanUp = true then
      { self with tracer.isSpanOfScope := false } else self) =
        { self with tracer.isSpanOfScope := isSpanOfScope } := by
    cases shouldCleanUp with
    | false => exact ⟨self.tracer.isSpanOfScope, rfl⟩
    | true => exact ⟨false, rfl⟩
  obtain ⟨isSpanOfScope, hscope⟩ := hscope
  rw [hscope]
  by_cases hlong : self.tracer.isAutoGeneratedTransaction = true ∧ 500 ≤
      SentrySession.timeIntervalSinceDate self.tracer.span.timestamp
        self.tracer.span.startTimestamp
  · exact ⟨self.tracer.isSpanOfScope, Or.inl (if_pos hlong)⟩
  rw [if_neg hlong]
  by_cases hhub : ¬self.tracer.hasHub = true
  · exact ⟨self.tracer.isSpanOfScope, Or.inl (if_pos hhub)⟩
  rw [if_neg hhub]
  refine ⟨isSpanOfScope, ?_⟩
  by_cases hmust : self.tracer.configuration.finishMustBeCalled = true ∧
      ¬self.tracer.wasFinishCalled = true
  · exact Or.inl (if_pos hmust)
  rw [if_neg hmust]
  by_cases hempty : SentryTracer.hasIdleTimeout
      { self.tracer with isSpanOfScope := isSpanOfScope } = true ∧
        self.tracer.children.length = 0
  · exact Or.inl (if_pos hempty)
  · exact Or.inr (if_neg hempty)

/-- What is handed over when the tracer finishes. -/
structure HandsOver (tracer : DisplayTracer) (captured : CapturedDisplay) : Prop where
  children : ∀ position, captured.transaction.children[position]? =
    (tracer.child position).map fun span =>
      SentryTracer.closeChild moment .deadlineExceeded (some (tracer.untrimmedEnd moment)) position
        (tracer.spanAfterCallback moment tracer.tracer.finishCallback (tracer.finalStart moment)
          position span)
  start : captured.transaction.transaction.startTimestamp = tracer.finalStart moment
  timestamp : tracer.tracer.isAutoGeneratedTransaction = true →
    captured.transaction.transaction.timestamp =
      some (captured.transaction.children.foldl SentryTracer.laterEnd (tracer.finalStart moment))
  measurements : captured.measurements = (tracer.finishSelf moment true).measurements

theorem handsOver_captureWith {tracer : DisplayTracer} (capture : Capture) {self : SentryTracer}
    (finished : self.isFinished = true)
    (span : self.span = (tracer.finishSelf moment true).tracer.span)
    (configuration : self.configuration = (tracer.finishSelf moment true).tracer.configuration)
    (children : self.children = (tracer.finishSelf moment true).tracer.children)
    {ended : SentryTracer} (hended : self.finishChildren moment (SentryTracer.canBeFinished moment)
      .deadlineExceeded = ended) :
    HandsOver moment tracer ⟨⟨capture, ended.toTransaction moment, ended.children⟩,
      (tracer.finishSelf moment true).measurements⟩ := by
  have hspec := finishSelf_spec moment true tracer
  constructor
  · intro position
    have hchild := finishSelf_child moment true tracer position
    rw [child, ← children] at hchild
    dsimp only
    rw [← hended, SentryTracer.finishChildren_child moment .deadlineExceeded finished, span,
      hspec.timestamp, hchild, Option.map_map]
    rfl
  · dsimp only [SentryTracer.toTransaction]
    rw [← hended, SentryTracer.finishChildren_start moment .deadlineExceeded finished, span,
      hspec.start]
  · intro auto
    have hauto : self.isAutoGeneratedTransaction = true := by
      unfold SentryTracer.isAutoGeneratedTransaction SentryTracer.hasIdleTimeout at auto ⊢
      rwa [configuration, hspec.configuration]
    dsimp only [SentryTracer.toTransaction]
    rw [← hended, SentryTracer.finishChildren_span moment .deadlineExceeded finished hauto, span,
      hspec.start]
  · rfl

/-- The tracer finishes and hands over at most one transaction. -/
theorem finishInternal_cases {tracer : DisplayTracer} (running : tracer.tracer.isFinished = false) :
    (tracer.finishInternal moment).tracer.isFinished = true ∧
      ((tracer.finishInternal moment).captured = tracer.captured ∨
        ∃ captured, HandsOver moment tracer captured ∧
          (tracer.finishInternal moment).captured = tracer.captured ++ [captured]) := by
  have hspec := finishSelf_spec moment true tracer
  unfold finishInternal
  obtain ⟨isSpanOfScope, hdiscard | hkeep⟩ :=
    finishTracer_cases moment .deadlineExceeded true running
  · rw [hdiscard]
    exact ⟨hspec.finished, Or.inl hspec.captured⟩
  · rw [hkeep]
    generalize hself : ({ (tracer.finishSelf moment true).tracer with
      isSpanOfScope := isSpanOfScope } : SentryTracer) = self
    have hfinished : self.isFinished = true := hself ▸ hspec.finished
    have hended := (SentryTracer.finishChildren_spec moment
      (SentryTracer.canBeFinished_quiet moment) .deadlineExceeded hfinished).1.finished
    have hhands : ∀ capture, HandsOver moment tracer ⟨⟨capture, _, _⟩, _⟩ := fun capture =>
      handsOver_captureWith moment capture hfinished (by rw [← hself]) (by rw [← hself])
        (by rw [← hself]) rfl
    dsimp only
    rw [if_neg (by decide)]
    split
    · refine ⟨hended, Or.inr ⟨_, hhands .captureTransactionWithProfile, ?_⟩⟩
      rw [captureWith, hspec.captured]
    · refine ⟨hended, Or.inr ⟨_, hhands .captureTransaction, ?_⟩⟩
      rw [captureWith, hspec.captured]

/-! The ends of the children at the call. -/

theorem finishInitialSpan_finished (position : Nat) {span : SentrySpan}
    (finished : span.isFinished = true) : finishInitialSpan moment position span = span :=
  if_pos finished

theorem finishInitialSpan_running (position : Nat) {span : SentrySpan}
    (running : span.isFinished = false) :
    finishInitialSpan moment position span =
      span.finishWithStatus .ok (moment.dates position) := by
  unfold finishInitialSpan
  rw [running]
  rfl

theorem calledBackFullSpan_isFinished (timeToDisplay : SentryTimeToDisplayTracker)
    (startTimestamp : NSDate) (initialEnd : Option NSDate) (position : Nat) (span : SentrySpan) :
    (calledBackFullSpan timeToDisplay startTimestamp initialEnd position span).isFinished =
      span.isFinished := by
  unfold calledBackFullSpan
  split
  · split <;> rfl
  · rfl

theorem calledBackFullSpan_timestamp {timeToDisplay : SentryTimeToDisplayTracker}
    (startTimestamp : NSDate) (initialEnd : Option NSDate) {position : Nat} {span : SentrySpan}
    (inTime : timeToDisplay.fullDisplaySpan = some position → span.status ≠ .deadlineExceeded) :
    (calledBackFullSpan timeToDisplay startTimestamp initialEnd position span).timestamp =
      span.timestamp := by
  unfold calledBackFullSpan
  split
  · rename_i hfull
    rw [if_neg (inTime hfull)]
  · rfl

theorem calledBackFullSpan_exceeded {timeToDisplay : SentryTimeToDisplayTracker}
    (startTimestamp : NSDate) (initialEnd : Option NSDate) {position : Nat} {span : SentrySpan}
    (full : timeToDisplay.fullDisplaySpan = some position)
    (exceeded : span.status = .deadlineExceeded) :
    (calledBackFullSpan timeToDisplay startTimestamp initialEnd position span).timestamp =
      initialEnd := by
  unfold calledBackFullSpan
  rw [if_pos full, if_pos exceeded]

theorem calledBackInitialSpan_finished (timeToDisplay : SentryTimeToDisplayTracker)
    (startTimestamp : NSDate) (position : Nat) {span : SentrySpan}
    (finished : span.isFinished = true) :
    ∃ start, calledBackInitialSpan moment timeToDisplay startTimestamp position span =
      { span with startTimestamp := start } := by
  unfold calledBackInitialSpan
  rw [finishInitialSpan_finished moment position finished]
  split
  · exact ⟨startTimestamp, rfl⟩
  · exact ⟨span.startTimestamp, rfl⟩

section AfterCallback
variable {tracer : DisplayTracer} (startTimestamp : NSDate) {position : Nat} {span : SentrySpan}

theorem spanAfterCallback_of_callsBack {timeToDisplay : SentryTimeToDisplayTracker}
    (calls : tracer.CallsBack timeToDisplay) :
    tracer.spanAfterCallback moment tracer.tracer.finishCallback startTimestamp position span =
      calledBackSpan moment timeToDisplay startTimestamp (tracer.initialEnd moment timeToDisplay)
        position span := by
  unfold spanAfterCallback
  rw [calls.1, calls.2]
  rfl

theorem spanAfterCallback_of_not_callsBack
    (calls : ∀ timeToDisplay, ¬tracer.CallsBack timeToDisplay) :
    tracer.spanAfterCallback moment tracer.tracer.finishCallback startTimestamp position span =
      span := by
  unfold spanAfterCallback
  split
  · rename_i timeToDisplay htimeToDisplay
    exact if_neg fun called => calls timeToDisplay ⟨called, htimeToDisplay⟩
  · rfl

theorem spanAfterCallback_kept (finished : span.isFinished = true)
    (inTime : ∀ timeToDisplay, tracer.CallsBack timeToDisplay →
      timeToDisplay.fullDisplaySpan = some position → span.status ≠ .deadlineExceeded) :
    (tracer.spanAfterCallback moment tracer.tracer.finishCallback startTimestamp position
        span).isFinished = true ∧
      (tracer.spanAfterCallback moment tracer.tracer.finishCallback startTimestamp position
        span).timestamp = span.timestamp := by
  by_cases hcalls : ∃ timeToDisplay, tracer.CallsBack timeToDisplay
  · obtain ⟨timeToDisplay, hcalls⟩ := hcalls
    obtain ⟨start, hinitial⟩ :=
      calledBackInitialSpan_finished moment timeToDisplay startTimestamp position finished
    rw [spanAfterCallback_of_callsBack moment startTimestamp hcalls]
    unfold calledBackSpan
    rw [hinitial, calledBackFullSpan_isFinished, calledBackFullSpan_timestamp]
    · exact ⟨finished, rfl⟩
    · exact inTime timeToDisplay hcalls
  · rw [spanAfterCallback_of_not_callsBack moment startTimestamp (not_exists.mp hcalls)]
    exact ⟨finished, rfl⟩

theorem spanAfterCallback_running (running : span.isFinished = false)
    (other : ∀ timeToDisplay, tracer.CallsBack timeToDisplay →
      timeToDisplay.initialDisplaySpan ≠ position) :
    (tracer.spanAfterCallback moment tracer.tracer.finishCallback startTimestamp position
      span).isFinished = false := by
  by_cases hcalls : ∃ timeToDisplay, tracer.CallsBack timeToDisplay
  · obtain ⟨timeToDisplay, hcalls⟩ := hcalls
    rw [spanAfterCallback_of_callsBack moment startTimestamp hcalls]
    unfold calledBackSpan calledBackInitialSpan
    rw [calledBackFullSpan_isFinished, if_neg (other timeToDisplay hcalls)]
    exact running
  · rw [spanAfterCallback_of_not_callsBack moment startTimestamp (not_exists.mp hcalls)]
    exact running

theorem spanAfterCallback_exceeded {timeToDisplay : SentryTimeToDisplayTracker}
    (calls : tracer.CallsBack timeToDisplay)
    (full : timeToDisplay.fullDisplaySpan = some position) (finished : span.isFinished = true)
    (exceeded : span.status = .deadlineExceeded) :
    (tracer.spanAfterCallback moment tracer.tracer.finishCallback startTimestamp position
        span).isFinished = true ∧
      (tracer.spanAfterCallback moment tracer.tracer.finishCallback startTimestamp position
        span).timestamp = tracer.initialEnd moment timeToDisplay := by
  obtain ⟨start, hinitial⟩ :=
    calledBackInitialSpan_finished moment timeToDisplay startTimestamp position finished
  rw [spanAfterCallback_of_callsBack moment startTimestamp calls]
  unfold calledBackSpan
  rw [hinitial, calledBackFullSpan_isFinished, calledBackFullSpan_exceeded]
  · exact ⟨finished, rfl⟩
  · exact full
  · exact exceeded

theorem spanAfterCallback_initial {timeToDisplay : SentryTimeToDisplayTracker}
    (calls : tracer.CallsBack timeToDisplay)
    (initial : timeToDisplay.initialDisplaySpan = position) (running : span.isFinished = false) :
    (tracer.spanAfterCallback moment tracer.tracer.finishCallback startTimestamp position
        span).isFinished = true ∧
      (tracer.spanAfterCallback moment tracer.tracer.finishCallback startTimestamp position
        span).timestamp = some (span.timestamp.getD (moment.dates position)) := by
  rw [spanAfterCallback_of_callsBack moment startTimestamp calls]
  unfold calledBackSpan calledBackInitialSpan
  rw [finishInitialSpan_running moment position running, if_pos initial,
    calledBackFullSpan_isFinished, calledBackFullSpan_timestamp]
  · exact ⟨rfl, rfl⟩
  · exact fun _ heq => by cases heq

end AfterCallback

/-- What is handed over when the tracer finishes, for a child by its position. -/
structure EndsWithChildren (tracer : DisplayTracer) (captured : CapturedDisplay) : Prop where
  length : captured.transaction.children.length = tracer.tracer.children.length
  start : captured.transaction.transaction.startTimestamp = tracer.finalStart moment
  timestamp : ∃ date, captured.transaction.transaction.timestamp = some date ∧
    IsLatest (fun other => other = tracer.finalStart moment ∨
      ∃ span ∈ captured.transaction.children, span.timestamp = some other) date
  kept : ∀ position span, tracer.child position = some span → span.isFinished = true →
    (∀ timeToDisplay, tracer.CallsBack timeToDisplay →
      timeToDisplay.fullDisplaySpan = some position → span.status ≠ .deadlineExceeded) →
    captured.transaction.children[position]?.bind SentrySpan.timestamp = span.timestamp
  exceeded : ∀ position span timeToDisplay, tracer.child position = some span →
    span.isFinished = true → tracer.CallsBack timeToDisplay →
    timeToDisplay.fullDisplaySpan = some position → span.status = .deadlineExceeded →
    captured.transaction.children[position]?.bind SentrySpan.timestamp =
      tracer.initialEnd moment timeToDisplay
  stamped : ∀ position span, tracer.child position = some span → span.isFinished = false →
    (∀ timeToDisplay, tracer.CallsBack timeToDisplay →
      timeToDisplay.initialDisplaySpan ≠ position) →
    captured.transaction.children[position]?.bind SentrySpan.timestamp =
      some (tracer.untrimmedEnd moment)
  initial : ∀ position span timeToDisplay, tracer.child position = some span →
    span.isFinished = false → tracer.CallsBack timeToDisplay →
    timeToDisplay.initialDisplaySpan = position →
    captured.transaction.children[position]?.bind SentrySpan.timestamp =
      some (span.timestamp.getD (moment.dates position))

theorem closeChild_timestamp (status : SentrySpanStatus) (timestamp : Option NSDate)
    (position : Nat) (span : SentrySpan) :
    (SentryTracer.closeChild moment status timestamp position span).timestamp =
      if span.isFinished then span.timestamp else timestamp := by
  unfold SentryTracer.closeChild
  split <;> rfl

theorem HandsOver.endsWithChildren {tracer : DisplayTracer} {captured : CapturedDisplay}
    (hands : HandsOver moment tracer captured)
    (auto : tracer.tracer.isAutoGeneratedTransaction = true) :
    EndsWithChildren moment tracer captured := by
  have hchild : ∀ position span, tracer.child position = some span →
      captured.transaction.children[position]?.bind SentrySpan.timestamp =
        if (tracer.spanAfterCallback moment tracer.tracer.finishCallback
            (tracer.finalStart moment) position span).isFinished then
          (tracer.spanAfterCallback moment tracer.tracer.finishCallback
            (tracer.finalStart moment) position span).timestamp
        else some (tracer.untrimmedEnd moment) := by
    intro position span hspan
    rw [hands.children, hspan, Option.map_some, Option.bind_some, closeChild_timestamp]
  constructor
  · apply Nat.le_antisymm
    · apply List.getElem?_eq_none_iff.mp
      rw [hands.children, child, List.getElem?_eq_none (Nat.le_refl _)]
      rfl
    · apply List.getElem?_eq_none_iff.mp
      have hnone := hands.children captured.transaction.children.length
      rw [List.getElem?_eq_none (Nat.le_refl _)] at hnone
      exact Option.map_eq_none_iff.mp hnone.symm
  · exact hands.start
  · exact ⟨_, hands.timestamp auto, SentryTracer.foldl_laterEnd_latest _ _⟩
  · intro position span hspan finished inTime
    obtain ⟨hfinished, htimestamp⟩ :=
      spanAfterCallback_kept moment (tracer.finalStart moment) finished inTime
    rw [hchild position span hspan, if_pos hfinished, htimestamp]
  · intro position span timeToDisplay hspan finished calls full exceeded
    obtain ⟨hfinished, htimestamp⟩ :=
      spanAfterCallback_exceeded moment (tracer.finalStart moment) calls full finished exceeded
    rw [hchild position span hspan, if_pos hfinished, htimestamp]
  · intro position span hspan running other
    have hrunning := spanAfterCallback_running moment (tracer.finalStart moment) running other
    rw [hchild position span hspan, if_neg (by rw [hrunning]; decide)]
  · intro position span timeToDisplay hspan running calls initial
    obtain ⟨hfinished, htimestamp⟩ :=
      spanAfterCallback_initial moment (tracer.finalStart moment) calls initial running
    rw [hchild position span hspan, if_pos hfinished, htimestamp]

/-- For any children, an auto-generated transaction ends with its last child when it is handed
over. Children that were finished keep their ends, apart from a full display that exceeded the
deadline, and the others end when the tracer did, apart from the initial display. -/
theorem finishInternal_endsWithChildren {tracer : DisplayTracer}
    (auto : tracer.tracer.isAutoGeneratedTransaction = true) :
    ∀ captured ∈ (tracer.finishInternal moment).captured,
      captured ∈ tracer.captured ∨ EndsWithChildren moment tracer captured := by
  intro captured hcaptured
  cases hrunning : tracer.tracer.isFinished with
  | true =>
    left
    rwa [finishInternal, finishTracer, if_pos hrunning] at hcaptured
  | false =>
    obtain ⟨-, hsame | ⟨transaction, hands, hlist⟩⟩ := finishInternal_cases moment hrunning
    · exact Or.inl (hsame ▸ hcaptured)
    · rw [hlist, List.mem_append, List.mem_singleton] at hcaptured
      refine hcaptured.imp_right ?_
      rintro rfl
      exact hands.endsWithChildren moment auto

/-- A clock that is one millisecond later when a child finishes. -/
def momentAt (milliseconds : ℤ) : Moment where
  date := ⟨milliseconds⟩
  dates := fun _ => ⟨milliseconds + 1⟩
  spanIds := fun i => ⟨i⟩
  createDispatchBlock := true
  shouldIgnoreWaitForChildrenCallback := fun _ => false
  appStartMeasurement := none

/-- A tracer that starts with the clock. -/
def initWithTracer (configuration : SentryTracerConfiguration) : DisplayTracer where
  tracer := .initWithTransactionContext (momentAt 0) ⟨0⟩ "ui.load" true configuration false false
  timeToDisplay := none
  measurements := ∅
  captured := []
  queuedReports := 0
  lastFrameDate := ⟨0⟩

/-- A screen that disappears before its first frame: finish has been called. -/
def screenWithoutFrame : DisplayTracer :=
  { (initWithTracer ⟨true, true, 0⟩).startForTracer (momentAt 0) "Screen" false none with
    tracer.wasFinishCalled := true }

theorem finishInternal_endsWithChildren_screenWithoutFrame :
    ∃ captured ∈ (screenWithoutFrame.finishInternal (momentAt 1000)).captured,
      EndsWithChildren (momentAt 1000) screenWithoutFrame captured := by
  have hcaptured : (screenWithoutFrame.finishInternal (momentAt 1000)).captured ≠ [] :=
    List.ne_nil_of_length_pos (by decide +kernel)
  have hends := finishInternal_endsWithChildren (momentAt 1000)
    (show screenWithoutFrame.tracer.isAutoGeneratedTransaction = true from rfl) _
    (List.head_mem hcaptured)
  exact ⟨_, List.head_mem hcaptured, hends.resolve_left List.not_mem_nil⟩

/-- The initial display is unfinished when the tracer finishes, and ends after it. -/
theorem initialDisplay_endsAfterTracer :
    ¬ ∀ (moment : Moment) (tracer : DisplayTracer) (captured : CapturedDisplay),
      tracer.tracer.isAutoGeneratedTransaction = true → tracer.tracer.isFinished = false →
      captured ∈ (tracer.finishInternal moment).captured → captured ∉ tracer.captured →
      ∀ position span, tracer.child position = some span → span.isFinished = false →
        captured.transaction.children[position]?.bind SentrySpan.timestamp =
          some (tracer.untrimmedEnd moment) := by
  intro h
  have hcaptured : (screenWithoutFrame.finishInternal (momentAt 1000)).captured ≠ [] :=
    List.ne_nil_of_length_pos (by decide +kernel)
  have hspan : (screenWithoutFrame.child 0).isSome = true := rfl
  have hends := h (momentAt 1000) screenWithoutFrame _ rfl rfl
    (List.head_mem hcaptured) List.not_mem_nil 0 _ (Option.some_get hspan).symm rfl
  have hend : ((screenWithoutFrame.finishInternal (momentAt 1000)).captured.head
      hcaptured).transaction.children[0]?.bind SentrySpan.timestamp ≠ some ⟨1000⟩ := by
    decide +kernel +revert
  exact hend hends

end DisplayTracer

end SentryCocoa.Tracer
