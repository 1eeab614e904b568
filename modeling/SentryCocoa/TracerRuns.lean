import SentryCocoa.Tracer

/-! A tracer hands its transaction over at most once, with all children finished, and
what it has handed over stays as it is. -/
namespace SentryCocoa.Tracer.SentryTracer
open SentryCocoa.Foundation SentryCocoa.Session SentryCocoa.Library.Machine

/-- What has been handed over lists the children, and all of them are finished. -/
structure Complete (captured : CapturedTransaction) (children : List SentrySpan) : Prop where
  finished : ∀ span ∈ captured.children, span.isFinished = true
  spanIds : captured.children.map SentrySpan.spanId = children.map SentrySpan.spanId
  spans : ∃ appStart : List SentrySpan, captured.transaction.spans =
    (List.range captured.children.length).map .child ++ appStart.map .appStart

/-- Nothing is handed over before the tracer is finished. -/
inductive Inv (tracer : SentryTracer) : Prop
  | running (running : tracer.isFinished = false) (captured : tracer.captured = [])
  | discarded (finished : tracer.isFinished = true) (captured : tracer.captured = [])
  | handedOver (finished : tracer.isFinished = true) (transaction : CapturedTransaction)
      (captured : tracer.captured = [transaction])
      (complete : Complete transaction tracer.children)

/-- What no step changes in a finished tracer. -/
structure Settled (tracer tracer' : SentryTracer) : Prop where
  finished : tracer'.isFinished = true
  captured : tracer'.captured = tracer.captured
  spanIds : tracer'.children.map SentrySpan.spanId = tracer.children.map SentrySpan.spanId

theorem Settled.refl {tracer : SentryTracer} (h : tracer.isFinished = true) :
    Settled tracer tracer := ⟨h, rfl, rfl⟩

theorem Settled.trans {first second third : SentryTracer} (h : Settled first second)
    (h' : Settled second third) : Settled first third :=
  ⟨h'.finished, h'.captured.trans h.captured, h'.spanIds.trans h.spanIds⟩

theorem Inv.settled {tracer tracer' : SentryTracer} (inv : Inv tracer)
    (finished : tracer.isFinished = true) (h : Settled tracer tracer') : Inv tracer' := by
  cases inv with
  | running running _ =>
    rw [running] at finished
    cases finished
  | discarded _ captured => exact .discarded h.finished (h.captured.trans captured)
  | handedOver _ transaction captured complete =>
    apply Inv.handedOver h.finished transaction (h.captured.trans captured)
    exact ⟨complete.finished, complete.spanIds.trans h.spanIds.symm, complete.spans⟩

/-- A step that keeps the invariant, and leaves a finished tracer settled. -/
def Keeps (f : SentryTracer → SentryTracer) : Prop :=
  ∀ tracer, Inv tracer → Inv (f tracer) ∧ (tracer.isFinished = true → Settled tracer (f tracer))

theorem Keeps.comp {f g : SentryTracer → SentryTracer} (hf : Keeps f) (hg : Keeps g) :
    Keeps fun tracer => g (f tracer) := by
  intro tracer inv
  obtain ⟨hinv, hsettled⟩ := hf tracer inv
  obtain ⟨hinv', hsettled'⟩ := hg (f tracer) hinv
  exact ⟨hinv', fun finished =>
    (hsettled finished).trans (hsettled' (hsettled finished).finished)⟩

theorem Keeps.foldl {ι : Type} {f : SentryTracer → ι → SentryTracer} (hf : ∀ i, Keeps (f · i))
    (items : List ι) : Keeps fun tracer => items.foldl f tracer := by
  induction items with
  | nil => exact fun tracer inv => ⟨inv, Settled.refl⟩
  | cons i items ih => exact (hf i).comp ih

/-- An update that touches neither the children's list nor what was handed over. -/
theorem Keeps.of_frame {f : SentryTracer → SentryTracer}
    (finished : ∀ tracer, (f tracer).isFinished = tracer.isFinished)
    (captured : ∀ tracer, (f tracer).captured = tracer.captured)
    (spanIds : ∀ tracer, (f tracer).children.map SentrySpan.spanId =
      tracer.children.map SentrySpan.spanId) : Keeps f := by
  intro tracer inv
  have hsettled : tracer.isFinished = true → Settled tracer (f tracer) := fun h =>
    ⟨(finished tracer).trans h, captured tracer, spanIds tracer⟩
  refine ⟨?_, hsettled⟩
  cases hfinished : tracer.isFinished with
  | true => exact inv.settled hfinished (hsettled hfinished)
  | false =>
    cases inv with
    | running _ hcaptured =>
      exact .running ((finished tracer).trans hfinished) ((captured tracer).trans hcaptured)
    | discarded h _ => cases hfinished.symm.trans h
    | handedOver h _ _ _ => cases hfinished.symm.trans h

/-! Finishing. -/

theorem map_spanId_modify {children : List SentrySpan} {f : SentrySpan → SentrySpan}
    (hf : ∀ span, (f span).spanId = span.spanId) (i : Nat) :
    (children.modify i f).map SentrySpan.spanId = children.map SentrySpan.spanId := by
  apply List.ext_getElem?
  intro j
  rw [List.getElem?_map, List.getElem?_map, List.getElem?_modify]
  cases children[j]? with
  | none => rfl
  | some span =>
    simp only [Option.map_some]
    split
    · simp [hf]
    · rfl

theorem modify_congr {children : List SentrySpan} {i : Nat} {f g : SentrySpan → SentrySpan}
    (h : ∀ span, children[i]? = some span → f span = g span) :
    children.modify i f = children.modify i g := by
  apply List.ext_getElem?
  intro j
  rw [List.getElem?_modify, List.getElem?_modify]
  by_cases heq : i = j
  · subst heq
    cases hspan : children[i]? with
    | none => rfl
    | some span => simp [h span hspan]
  · simp [heq]

section Finish
variable (moment : Moment) {callback : SentryTracer → SentryTracer}

/-- A child that calls back from within a finished tracer changes nothing. -/
def Quiet (callback : SentryTracer → SentryTracer) : Prop :=
  ∀ tracer, tracer.isFinished = true → callback tracer = tracer

variable (callback) in
theorem finishSelf_finished (shouldCleanUp : Bool) (tracer : SentryTracer) :
    (tracer.finishSelf moment callback shouldCleanUp).isFinished = true := by
  unfold finishSelf spanFinished
  cases moment.appStartMeasurement <;> cases shouldCleanUp <;> rfl

variable (callback) in
theorem finishSelf_captured (shouldCleanUp : Bool) (tracer : SentryTracer) :
    (tracer.finishSelf moment callback shouldCleanUp).captured = tracer.captured := by
  unfold finishSelf spanFinished
  cases moment.appStartMeasurement <;> cases shouldCleanUp <;> rfl

variable (callback) in
/-- Without the callback: the child is finished, or it was before. -/
def closeChild (moment : Moment) (status : SentrySpanStatus) (timestamp : Option NSDate)
    (child : Nat) (span : SentrySpan) : SentrySpan :=
  if span.isFinished then span
  else { span.finishWithStatus status (moment.dates child) with timestamp := timestamp }

theorem finishUnfinishedChild_eq (quiet : Quiet callback) (status : SentrySpanStatus)
    {tracer : SentryTracer} (finished : tracer.isFinished = true) (child : Nat) :
    tracer.finishUnfinishedChild moment callback status child =
      { tracer with
        children := tracer.children.modify child
          (closeChild moment status tracer.span.timestamp child) } := by
  unfold finishUnfinishedChild
  by_cases hchild : tracer.childIsFinished child = true
  · have hsame : tracer.children.modify child
        (closeChild moment status tracer.span.timestamp child) = tracer.children := by
      rw [modify_congr, List.modify_id]
      intro span hspan
      rw [childIsFinished, hspan] at hchild
      exact if_pos (by simpa using hchild)
    rw [if_pos hchild, hsame]
  · rw [if_neg hchild]
    unfold finishChildWithStatus spanFinished
    have hquiet := quiet { tracer with
      children := tracer.children.modify child fun span =>
        span.finishWithStatus status (moment.dates child) } finished
    simp only [hquiet, List.modify_modify_eq]
    congr 1
    apply modify_congr
    intro span hspan
    rw [childIsFinished, hspan] at hchild
    exact (if_neg (by simpa using hchild)).symm

def closeChildren (moment : Moment) (status : SentrySpanStatus) (timestamp : Option NSDate)
    (positions : List Nat) (children : List SentrySpan) : List SentrySpan :=
  positions.foldl (fun children child =>
    children.modify child (closeChild moment status timestamp child)) children

theorem foldl_finishUnfinishedChild (quiet : Quiet callback) (status : SentrySpanStatus)
    (positions : List Nat) {tracer : SentryTracer} (finished : tracer.isFinished = true) :
    positions.foldl (finishUnfinishedChild moment callback status) tracer =
      { tracer with
        children := closeChildren moment status tracer.span.timestamp positions
          tracer.children } := by
  induction positions generalizing tracer with
  | nil => rfl
  | cons child positions ih =>
    have hchild := finishUnfinishedChild_eq moment quiet status finished child
    rw [List.foldl_cons, hchild]
    apply ih
    exact finished

theorem closeChild_spanId (status : SentrySpanStatus) (timestamp : Option NSDate) (child : Nat)
    (span : SentrySpan) : (closeChild moment status timestamp child span).spanId = span.spanId := by
  unfold closeChild
  split <;> rfl

theorem closeChild_finished (status : SentrySpanStatus) (timestamp : Option NSDate) (child : Nat)
    (span : SentrySpan) : (closeChild moment status timestamp child span).isFinished = true := by
  unfold closeChild
  split
  · assumption
  · rfl

theorem closeChildren_spanId (status : SentrySpanStatus) (timestamp : Option NSDate)
    (positions : List Nat) (children : List SentrySpan) :
    (closeChildren moment status timestamp positions children).map SentrySpan.spanId =
      children.map SentrySpan.spanId := by
  induction positions generalizing children with
  | nil => rfl
  | cons child positions ih =>
    exact (ih _).trans (map_spanId_modify (closeChild_spanId moment status timestamp child) child)

/-- Every child whose turn comes is finished, and stays so. -/
theorem closeChildren_finished (status : SentrySpanStatus) (timestamp : Option NSDate)
    (positions : List Nat) {children : List SentrySpan} {j : Nat}
    (h : j ∈ positions ∨ ∀ span, children[j]? = some span → span.isFinished = true)
    {span : SentrySpan}
    (hspan : (closeChildren moment status timestamp positions children)[j]? = some span) :
    span.isFinished = true := by
  induction positions generalizing children with
  | nil => exact h.resolve_left List.not_mem_nil span hspan
  | cons child positions ih =>
    apply ih _ hspan
    by_cases heq : child = j
    · right
      intro before hbefore
      rw [heq, List.getElem?_modify_eq] at hbefore
      obtain ⟨first, -, rfl⟩ := Option.map_eq_some_iff.mp hbefore
      exact closeChild_finished moment status timestamp j first
    · rw [List.mem_cons] at h
      refine (h.imp_left fun hmem => hmem.resolve_left (Ne.symm heq)).imp_right fun hother => ?_
      intro before hbefore
      rw [List.getElem?_modify_ne _ _ heq] at hbefore
      exact hother before hbefore

/-- What finishing the children leaves as it is, and that it finishes all of them. -/
theorem finishChildren_spec (quiet : Quiet callback) (status : SentrySpanStatus)
    {tracer : SentryTracer} (finished : tracer.isFinished = true) :
    Settled tracer (tracer.finishChildren moment callback status) ∧
      ∀ span ∈ (tracer.finishChildren moment callback status).children,
        span.isFinished = true := by
  unfold finishChildren
  rw [foldl_finishUnfinishedChild moment quiet status _ finished]
  dsimp only
  generalize hclosed : closeChildren moment status tracer.span.timestamp
    (List.range tracer.children.length) tracer.children = closed
  have hspanIds : closed.map SentrySpan.spanId = tracer.children.map SentrySpan.spanId := by
    rw [← hclosed, closeChildren_spanId]
  have hlength : closed.length = tracer.children.length := by
    simpa using congrArg List.length hspanIds
  have hall : ∀ span ∈ closed, span.isFinished = true := by
    intro span hspan
    obtain ⟨j, hj, rfl⟩ := List.mem_iff_getElem.mp hspan
    have hturn : j ∈ List.range tracer.children.length := List.mem_range.mpr (hlength ▸ hj)
    apply closeChildren_finished moment status tracer.span.timestamp _ (Or.inl hturn)
    rw [hclosed]
    exact List.getElem?_eq_getElem hj
  split
  · exact ⟨⟨finished, rfl, hspanIds⟩, hall⟩
  · exact ⟨⟨finished, rfl, hspanIds⟩, hall⟩

variable (callback) in
/-- The transaction is discarded, or the children are finished. -/
theorem finishTracer_cases (status : SentrySpanStatus) (shouldCleanUp : Bool)
    {tracer : SentryTracer} (running : tracer.isFinished = false) :
    ∃ self, Settled (tracer.finishSelf moment callback shouldCleanUp) self ∧
      (tracer.finishTracer moment callback status shouldCleanUp = (self, true) ∨
        tracer.finishTracer moment callback status shouldCleanUp =
          (self.finishChildren moment callback status, false)) := by
  have hfinished := finishSelf_finished moment callback shouldCleanUp
    tracer
  unfold finishTracer
  rw [if_neg (by rw [running]; decide)]
  generalize tracer.finishSelf moment callback shouldCleanUp = self at *
  dsimp only
  have hscope : Settled self (if shouldCleanUp = true then { self with isSpanOfScope := false }
      else self) := by
    split
    · exact ⟨hfinished, rfl, rfl⟩
    · exact Settled.refl hfinished
  generalize (if shouldCleanUp = true then { self with isSpanOfScope := false } else self) =
    cleaned at *
  by_cases hlong : self.isAutoGeneratedTransaction = true ∧
      500 ≤ SentrySession.timeIntervalSinceDate self.span.timestamp self.span.startTimestamp
  · exact ⟨self, Settled.refl hfinished, Or.inl (if_pos hlong)⟩
  rw [if_neg hlong]
  by_cases hhub : ¬self.hasHub = true
  · exact ⟨self, Settled.refl hfinished, Or.inl (if_pos hhub)⟩
  rw [if_neg hhub]
  by_cases hmust : cleaned.configuration.finishMustBeCalled = true ∧ ¬cleaned.wasFinishCalled = true
  · exact ⟨cleaned, hscope, Or.inl (if_pos hmust)⟩
  rw [if_neg hmust]
  by_cases hempty : cleaned.hasIdleTimeout = true ∧ cleaned.children.length = 0
  · exact ⟨cleaned, hscope, Or.inl (if_pos hempty)⟩
  · exact ⟨cleaned, hscope, Or.inr (if_neg hempty)⟩

variable (callback) in
theorem finishTracer_finished {tracer : SentryTracer} (finished : tracer.isFinished = true)
    (status : SentrySpanStatus) (shouldCleanUp : Bool) :
    tracer.finishTracer moment callback status shouldCleanUp = (tracer, true) := by
  unfold finishTracer
  exact if_pos finished

theorem Inv.captureWith {tracer : SentryTracer} (finished : tracer.isFinished = true)
    (captured : tracer.captured = []) (hall : ∀ span ∈ tracer.children, span.isFinished = true)
    (capture : Capture) : Inv (tracer.captureWith moment capture) := by
  have hfinished : (tracer.captureWith moment capture).isFinished = true := finished
  apply Inv.handedOver hfinished ⟨capture, tracer.toTransaction moment, tracer.children⟩
  · rw [SentryTracer.captureWith, captured, List.nil_append]
  · exact ⟨hall, rfl, _, rfl⟩

/-- What both ways to finish do with the result of `finishTracer`. -/
theorem Inv.finishTracer (quiet : Quiet callback) {tracer : SentryTracer}
    (running : tracer.isFinished = false) (captured : tracer.captured = [])
    (status : SentrySpanStatus) (shouldCleanUp : Bool) (capture : SentryTracer → Capture) :
    Inv (if (tracer.finishTracer moment callback status shouldCleanUp).2 then
        (tracer.finishTracer moment callback status shouldCleanUp).1
      else (tracer.finishTracer moment callback status shouldCleanUp).1.captureWith moment
        (capture (tracer.finishTracer moment callback status shouldCleanUp).1)) := by
  have hself := finishSelf_captured moment callback shouldCleanUp tracer
  obtain ⟨self, hsettled, hdiscard | hkeep⟩ :=
    finishTracer_cases moment callback status shouldCleanUp running
  · rw [hdiscard]
    exact .discarded hsettled.finished (hsettled.captured.trans (hself.trans captured))
  · obtain ⟨hchildren, hall⟩ :=
      finishChildren_spec moment quiet status hsettled.finished
    rw [hkeep]
    apply Inv.captureWith moment hchildren.finished _ hall
    rw [hchildren.captured, hsettled.captured, hself, captured]

/-- Both ways to finish hand over what `finishTracer` does not discard. -/
theorem finishTracer_keeps (quiet : Quiet callback) (status : SentrySpanStatus)
    (shouldCleanUp : Bool) (capture : SentryTracer → Capture) :
    Keeps fun tracer =>
      if (tracer.finishTracer moment callback status shouldCleanUp).2 then
        (tracer.finishTracer moment callback status shouldCleanUp).1
      else (tracer.finishTracer moment callback status shouldCleanUp).1.captureWith moment
        (capture (tracer.finishTracer moment callback status shouldCleanUp).1) := by
  intro tracer inv
  cases hfinished : tracer.isFinished with
  | true =>
    dsimp only
    rw [finishTracer_finished moment callback hfinished]
    exact ⟨inv, fun _ => Settled.refl hfinished⟩
  | false =>
    cases inv with
    | discarded h _ => cases hfinished.symm.trans h
    | handedOver h _ _ _ => cases hfinished.symm.trans h
    | running _ captured =>
      exact ⟨Inv.finishTracer moment quiet hfinished captured status shouldCleanUp capture,
        fun h => by cases h⟩

theorem finishInternal_keeps (quiet : Quiet callback) :
    Keeps (finishInternal moment callback) := by
  have hunfold : finishInternal moment callback = fun tracer =>
      if (tracer.finishTracer moment callback .deadlineExceeded true).2 then
        (tracer.finishTracer moment callback .deadlineExceeded true).1
      else (tracer.finishTracer moment callback .deadlineExceeded true).1.captureWith moment
        (if (tracer.finishTracer moment callback .deadlineExceeded true).1.isProfiling then
          .captureTransactionWithProfile else .captureTransaction) := by
    funext tracer
    unfold finishInternal
    dsimp only
    split
    · rfl
    · split <;> rfl
  rw [hunfold]
  exact finishTracer_keeps moment quiet .deadlineExceeded true fun self =>
    if self.isProfiling then .captureTransactionWithProfile else .captureTransaction

theorem canBeFinishedWith_quiet (callback : SentryTracer → SentryTracer) :
    Quiet (canBeFinishedWith moment callback) := by
  intro tracer finished
  unfold canBeFinishedWith
  exact if_pos finished

/-- Callbacks that do nothing in a finished tracer are the same to `finishTracer`. -/
theorem finishTracer_congr {other : SentryTracer → SentryTracer} (quiet : Quiet callback)
    (quiet' : Quiet other) (status : SentrySpanStatus) (shouldCleanUp : Bool)
    (tracer : SentryTracer) :
    tracer.finishTracer moment callback status shouldCleanUp =
      tracer.finishTracer moment other status shouldCleanUp := by
  have hself : tracer.finishSelf moment callback shouldCleanUp =
      tracer.finishSelf moment other shouldCleanUp := rfl
  have hfinished := finishSelf_finished moment other shouldCleanUp tracer
  have hchildren : ∀ self : SentryTracer, self.isFinished = true →
      self.finishChildren moment callback status = self.finishChildren moment other status := by
    intro self finished
    unfold finishChildren
    rw [foldl_finishUnfinishedChild moment quiet status _ finished,
      foldl_finishUnfinishedChild moment quiet' status _ finished]
  unfold finishTracer
  rw [hself]
  generalize tracer.finishSelf moment other shouldCleanUp = self at *
  dsimp only
  rw [hchildren]
  cases shouldCleanUp
  · exact hfinished
  · exact hfinished

theorem canBeFinishedWith_congr {other : SentryTracer → SentryTracer} (quiet : Quiet callback)
    (quiet' : Quiet other) :
    canBeFinishedWith moment callback = canBeFinishedWith moment other := by
  funext tracer
  unfold canBeFinishedWith dispatchIdleTimeout finishInternal
  rw [finishTracer_congr moment quiet quiet']

theorem canBeFinishedWith_keeps (quiet : Quiet callback) :
    Keeps (canBeFinishedWith moment callback) := by
  intro tracer inv
  have hsame : Inv tracer ∧ (tracer.isFinished = true → Settled tracer tracer) :=
    ⟨inv, Settled.refl⟩
  have hfinish := finishInternal_keeps moment quiet tracer inv
  unfold canBeFinishedWith dispatchIdleTimeout
  dsimp only
  split_ifs <;> assumption

end Finish

/-! The calls. -/

section Calls
variable (moment : Moment)

theorem canBeFinished_quiet : Quiet (canBeFinished moment) :=
  canBeFinishedWith_quiet moment _

/-- The second round is the last one: a finished child may call `canBeFinished` itself. -/
theorem canBeFinished_eq :
    canBeFinished moment = canBeFinishedWith moment (canBeFinished moment) :=
  canBeFinishedWith_congr moment (canBeFinishedWith_quiet moment id) (canBeFinished_quiet moment)

theorem canBeFinished_keeps : Keeps (canBeFinished moment) :=
  canBeFinishedWith_keeps moment (canBeFinishedWith_quiet moment id)

theorem finishChildWithStatus_keeps (child : Nat) (status : SentrySpanStatus) :
    Keeps (finishChildWithStatus moment (canBeFinished moment) child status) := by
  apply Keeps.comp (g := canBeFinished moment) _ (canBeFinished_keeps moment)
  apply Keeps.of_frame
  · exact fun _ => rfl
  · exact fun _ => rfl
  · exact fun tracer => map_spanId_modify
      (f := fun span => span.finishWithStatus status (moment.dates child)) (fun _ => rfl) child

theorem finishWithStatus_keeps (status : SentrySpanStatus) :
    Keeps (finishWithStatus moment status) := by
  apply Keeps.comp (g := canBeFinished moment) _ (canBeFinished_keeps moment)
  exact Keeps.of_frame (fun _ => rfl) (fun _ => rfl) (fun _ => rfl)

theorem finishForCrash_keeps : Keeps (finishForCrash moment) := by
  have hcrash : Keeps fun tracer =>
      { tracer with wasFinishCalled := true, finishStatus := .internalError } :=
    Keeps.of_frame (fun _ => rfl) (fun _ => rfl) (fun _ => rfl)
  apply hcrash.comp (g := fun tracer =>
    if (tracer.finishTracer moment (canBeFinished moment) .internalError false).2 then
      (tracer.finishTracer moment (canBeFinished moment) .internalError false).1
    else (tracer.finishTracer moment (canBeFinished moment) .internalError false).1.captureWith
      moment .saveCrashTransaction)
  exact finishTracer_keeps moment (canBeFinished_quiet moment) .internalError false
    fun _ => .saveCrashTransaction

theorem deadlineTimerFired_keeps : Keeps (deadlineTimerFired moment) := by
  have hchild : ∀ child, Keeps fun tracer =>
      if tracer.childIsFinished child then tracer
      else tracer.finishChildWithStatus moment (canBeFinished moment) child .deadlineExceeded := by
    intro child tracer inv
    dsimp only
    split
    · exact ⟨inv, Settled.refl⟩
    · exact finishChildWithStatus_keeps moment child .deadlineExceeded tracer inv
  have hstatus : Keeps fun tracer => { tracer with finishStatus := .deadlineExceeded } :=
    Keeps.of_frame (fun _ => rfl) (fun _ => rfl) (fun _ => rfl)
  intro tracer inv
  unfold deadlineTimerFired
  split
  · exact ⟨inv, Settled.refl⟩
  · exact (((Keeps.foldl hchild (List.range tracer.children.length)).comp hstatus).comp
      (finishInternal_keeps moment (canBeFinished_quiet moment))) tracer inv

theorem startChildWithParentId_finished {tracer : SentryTracer}
    (finished : tracer.isFinished = true) (parentId : SentrySpanId) (operation : String)
    (description : Option String) :
    tracer.startChildWithParentId moment parentId operation description = (tracer, .noOp) := by
  unfold startChildWithParentId
  exact if_pos finished

theorem startNestedChild_finished {tracer : SentryTracer} (finished : tracer.isFinished = true)
    {parent : Nat} {operation : String} {description : Option String}
    {started : SentryTracer × StartedSpan}
    (h : tracer.startNestedChild moment parent operation description = some started) :
    started = (tracer, .noOp) := by
  obtain ⟨span, -, rfl⟩ := Option.map_eq_some_iff.mp h
  exact startChildWithParentId_finished moment finished span.spanId operation description

/-- A child starts below some span, whichever is active. -/
theorem startChildWithOperation_eq (tracer : SentryTracer) (activeSpan : Option Nat)
    (operation : String) (description : Option String) : ∃ parentId,
    tracer.startChildWithOperation moment activeSpan operation description =
      tracer.startChildWithParentId moment parentId operation description := by
  unfold startChildWithOperation
  cases hactive : (activeSpan.bind fun child =>
      tracer.startNestedChild moment child operation description) with
  | none => exact ⟨tracer.span.spanId, rfl⟩
  | some started =>
    obtain ⟨child, -, hchild⟩ := Option.bind_eq_some_iff.mp hactive
    obtain ⟨span, -, rfl⟩ := Option.map_eq_some_iff.mp hchild
    exact ⟨span.spanId, rfl⟩

theorem startChildWithOperation_finished {tracer : SentryTracer}
    (finished : tracer.isFinished = true) (activeSpan : Option Nat) (operation : String)
    (description : Option String) :
    tracer.startChildWithOperation moment activeSpan operation description = (tracer, .noOp) := by
  obtain ⟨parentId, heq⟩ :=
    startChildWithOperation_eq moment tracer activeSpan operation description
  rw [heq]
  exact startChildWithParentId_finished moment finished parentId operation description

theorem startChildWithParentId_keeps (parentId : SentrySpanId) (operation : String)
    (description : Option String) :
    Keeps fun tracer =>
      (tracer.startChildWithParentId moment parentId operation description).1 := by
  intro tracer inv
  cases hfinished : tracer.isFinished with
  | true =>
    dsimp only
    rw [startChildWithParentId_finished moment hfinished]
    exact ⟨inv, fun _ => Settled.refl hfinished⟩
  | false =>
    cases inv with
    | discarded h _ => cases hfinished.symm.trans h
    | handedOver h _ _ _ => cases hfinished.symm.trans h
    | running _ captured =>
      refine ⟨?_, fun h => by cases h⟩
      unfold startChildWithParentId
      dsimp only
      rw [if_neg (by rw [hfinished]; decide)]
      exact .running hfinished captured

theorem startNestedChild_keeps {parent : Nat} {operation : String} {description : Option String}
    {tracer tracer' : SentryTracer} {started : StartedSpan} (inv : Inv tracer)
    (h : tracer.startNestedChild moment parent operation description = some (tracer', started)) :
    Inv tracer' ∧ (tracer.isFinished = true → Settled tracer tracer') := by
  obtain ⟨span, -, heq⟩ := Option.map_eq_some_iff.mp h
  have hkeeps := startChildWithParentId_keeps moment span.spanId operation description tracer inv
  dsimp only at hkeeps
  rwa [heq] at hkeeps

theorem startChildWithOperation_keeps (activeSpan : Option Nat) (operation : String)
    (description : Option String) :
    Keeps fun tracer =>
      (tracer.startChildWithOperation moment activeSpan operation description).1 := by
  intro tracer inv
  obtain ⟨parentId, heq⟩ :=
    startChildWithOperation_eq moment tracer activeSpan operation description
  dsimp only
  rw [heq]
  exact startChildWithParentId_keeps moment parentId operation description tracer inv

end Calls

/-! Runs. -/

theorem step_keeps {tracer tracer' : SentryTracer} {input : Event × Moment} (inv : Inv tracer)
    (h : tracer.step input = some tracer') :
    Inv tracer' ∧ (tracer.isFinished = true → Settled tracer tracer') := by
  obtain ⟨event, moment⟩ := input
  cases event with
  | startChild activeSpan operation description =>
    cases h
    exact startChildWithOperation_keeps moment activeSpan operation description tracer inv
  | startNestedChild parent operation description =>
    obtain ⟨⟨child, started⟩, hchild, rfl⟩ := Option.map_eq_some_iff.mp h
    exact startNestedChild_keeps moment inv hchild
  | finishChild child status =>
    obtain ⟨-, heq⟩ := Option.ite_none_right_eq_some.mp h
    cases heq
    exact finishChildWithStatus_keeps moment child status tracer inv
  | finish =>
    cases h
    exact finishWithStatus_keeps moment .ok tracer inv
  | finishWithStatus status =>
    cases h
    exact finishWithStatus_keeps moment status tracer inv
  | setStatus status =>
    cases h
    exact Keeps.of_frame (f := fun tracer => { tracer with span.status := status })
      (fun _ => rfl) (fun _ => rfl) (fun _ => rfl) tracer inv
  | setSpanOfScope =>
    cases h
    exact Keeps.of_frame (f := fun tracer => { tracer with isSpanOfScope := true })
      (fun _ => rfl) (fun _ => rfl) (fun _ => rfl) tracer inv
  | idleTimeout =>
    obtain ⟨-, heq⟩ := Option.ite_none_right_eq_some.mp h
    cases heq
    exact finishInternal_keeps moment (canBeFinished_quiet moment) tracer inv
  | deadlineTimer =>
    obtain ⟨-, heq⟩ := Option.ite_none_right_eq_some.mp h
    cases heq
    exact deadlineTimerFired_keeps moment tracer inv
  | finishForCrash =>
    cases h
    exact finishForCrash_keeps moment tracer inv

theorem exec_settled {tracer tracer' : SentryTracer} {inputs : List (Event × Moment)}
    (inv : Inv tracer) (finished : tracer.isFinished = true)
    (h : exec step tracer inputs = some tracer') : Settled tracer tracer' := by
  induction inputs generalizing tracer with
  | nil =>
    cases h
    exact Settled.refl finished
  | cons input inputs ih =>
    obtain ⟨next, hstep, hrest⟩ := exec_cons_eq_some.mp h
    obtain ⟨hinv, hsettled⟩ := step_keeps inv hstep
    exact (hsettled finished).trans (ih hinv (hsettled finished).finished hrest)

theorem initWithTransactionContext_inv (moment : Moment) (spanId : SentrySpanId)
    (operation : String) (hasHub : Bool) (configuration : SentryTracerConfiguration)
    (isProfiling finishCallback : Bool) :
    Inv (initWithTransactionContext moment spanId operation hasHub configuration isProfiling
      finishCallback) := by
  unfold initWithTransactionContext
  dsimp only
  split
  · unfold dispatchIdleTimeout
    split
    · exact .running rfl rfl
    · exact (finishInternal_keeps moment (canBeFinished_quiet moment) _ (.running rfl rfl)).1
  · exact .running rfl rfl

/-- What holds in every state of a run. -/
structure Correct (tracer : SentryTracer) : Prop where
  once : tracer.captured.length ≤ 1
  /-- At the call every child of the transaction is finished. -/
  childrenFinished : ∀ captured ∈ tracer.captured, ∀ position,
    .child position ∈ captured.transaction.spans →
      ∃ span, captured.children[position]? = some span ∧ span.isFinished = true
  /-- The children of the transaction are those of the tracer. -/
  children : ∀ captured ∈ tracer.captured,
    captured.children.map SentrySpan.spanId = tracer.children.map SentrySpan.spanId ∧
      ∀ position < tracer.children.length, .child position ∈ captured.transaction.spans
  noOp : tracer.isFinished = true → ∀ moment operation description,
    (∀ activeSpan, tracer.startChildWithOperation moment activeSpan operation description =
      (tracer, .noOp)) ∧
    ∀ parent started, tracer.startNestedChild moment parent operation description = some started →
      started = (tracer, .noOp)
  final : tracer.isFinished = true → ∀ inputs tracer',
    exec step tracer inputs = some tracer' → tracer'.captured = tracer.captured

theorem Complete.childrenFinished {captured : CapturedTransaction} {children : List SentrySpan}
    (complete : Complete captured children) {position : Nat}
    (hposition : .child position ∈ captured.transaction.spans) :
    ∃ span, captured.children[position]? = some span ∧ span.isFinished = true := by
  obtain ⟨appStart, hspans⟩ := complete.spans
  rw [hspans, List.mem_append] at hposition
  rcases hposition with hchild | happStart
  · obtain ⟨child, hchild, heq⟩ := List.mem_map.mp hchild
    cases heq
    have hlength := List.mem_range.mp hchild
    exact ⟨captured.children[position], List.getElem?_eq_getElem hlength,
      complete.finished _ (List.getElem_mem hlength)⟩
  · obtain ⟨span, -, heq⟩ := List.mem_map.mp happStart
    cases heq

theorem Complete.children {captured : CapturedTransaction} {children : List SentrySpan}
    (complete : Complete captured children) {position : Nat} (hposition : position < children.length) :
    .child position ∈ captured.transaction.spans := by
  obtain ⟨appStart, hspans⟩ := complete.spans
  have hlength : captured.children.length = children.length := by
    simpa using congrArg List.length complete.spanIds
  rw [hspans, hlength]
  exact List.mem_append_left _ (List.mem_map_of_mem (List.mem_range.mpr hposition))

theorem Inv.correct {tracer : SentryTracer} (inv : Inv tracer) : Correct tracer := by
  have hcaptured : ∀ captured ∈ tracer.captured,
      tracer.captured = [captured] ∧ Complete captured tracer.children := by
    intro captured hmem
    cases inv with
    | running _ hnone =>
      rw [hnone] at hmem
      cases hmem
    | discarded _ hnone =>
      rw [hnone] at hmem
      cases hmem
    | handedOver _ transaction hone complete =>
      rw [hone, List.mem_singleton] at hmem
      subst hmem
      exact ⟨hone, complete⟩
  constructor
  · cases hlist : tracer.captured with
    | nil => exact Nat.zero_le 1
    | cons captured others =>
      obtain ⟨hone, -⟩ := hcaptured captured (hlist ▸ List.mem_cons_self)
      rw [← hlist, hone]
      exact le_rfl
  · exact fun captured hmem position hposition =>
      (hcaptured captured hmem).2.childrenFinished hposition
  · exact fun captured hmem => ⟨(hcaptured captured hmem).2.spanIds,
      fun position hposition => (hcaptured captured hmem).2.children hposition⟩
  · exact fun finished moment operation description =>
      ⟨fun activeSpan => startChildWithOperation_finished moment finished activeSpan operation
          description,
        fun parent started => startNestedChild_finished moment finished⟩
  · exact fun finished inputs tracer' h => (exec_settled inv finished h).captured

/-- In every run of a tracer its transaction is handed over at most once, complete, and
nothing changes it afterwards. -/
theorem always_capturedOnce (moment : Moment) (spanId : SentrySpanId) (operation : String)
    (hasHub : Bool) (configuration : SentryTracerConfiguration)
    (isProfiling finishCallback : Bool) (inputs : List (Event × Moment)) :
    Always step Correct (initWithTransactionContext moment spanId operation hasHub configuration
      isProfiling finishCallback) inputs :=
  always_of_invariant (fun _ inv => inv.correct) (fun _ _ _ inv h => (step_keeps inv h).1)
    (initWithTransactionContext_inv moment spanId operation hasHub configuration isProfiling
      finishCallback) inputs

end SentryCocoa.Tracer.SentryTracer
