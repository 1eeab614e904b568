import SentryCocoa.NetworkTracker

/-! Where the spans of the requests are. However the calls of the tracker are interleaved, a span
is with its task, with the one call that is to finish it, or finished. -/
namespace SentryCocoa.NetworkTracker
open SentryCocoa.Tracer SentryCocoa.Library.Machine

/-- What replacing an element does to the number of those with a property. -/
theorem countP_set_add {α : Type} (p : α → Bool) {list : List α} {i : Nat} {old : α}
    (h : list[i]? = some old) (new : α) :
    (list.set i new).countP p + (if p old then 1 else 0) =
      list.countP p + (if p new then 1 else 0) := by
  obtain ⟨hlt, hold⟩ := List.getElem?_eq_some_iff.mp h
  have hle := List.boole_getElem_le_countP (p := p) hlt
  rw [List.countP_set hlt, hold]
  rw [hold] at hle
  omega

theorem countP_set_same {α : Type} (p : α → Bool) {list : List α} {i : Nat} {old new : α}
    (h : list[i]? = some old) (hsame : p new = p old) :
    (list.set i new).countP p = list.countP p := by
  have hadd := countP_set_add p h new
  rw [hsame] at hadd
  omega

/-- A call that has taken the span of its task, if there was one, is to finish it. -/
structure Call.Begun (call : Call) : Prop where
  taken : .takeSpan ∉ call.todo
  finishes : call.netSpan ≠ none → .finishSpan ∈ call.todo

/-- A call takes a span only as its first statement. -/
def Call.Tidy (call : Call) : Prop :=
  call.Begun ∨ ∃ todo, call.todo = .takeSpan :: todo ∧ .takeSpan ∉ todo ∧
    .finishSpan ∈ todo ∧ call.netSpan = none

theorem Call.Tidy.next {call : Call} {statement : Statement}
    (h : ({ call with todo := statement :: call.todo } : Call).Tidy)
    (hne : statement ≠ .takeSpan) :
    .takeSpan ∉ call.todo ∧
      (call.netSpan ≠ none → statement = .finishSpan ∨ .finishSpan ∈ call.todo) := by
  obtain hbegun | ⟨todo, htodo, -⟩ := h
  · refine ⟨fun hmem => hbegun.taken (List.mem_cons_of_mem statement hmem), fun hspan => ?_⟩
    exact (List.mem_cons.mp (hbegun.finishes hspan)).imp Eq.symm id
  · exact absurd (List.cons.inj htodo).1 hne

namespace State

def inTasks (s : State) (span : Nat) : Nat := s.tasks.countP fun task => task.span == some span

def inCalls (s : State) (span : Nat) : Nat := s.calls.countP fun call => call.netSpan == some span

def timesFinished (s : State) (span : Nat) : Nat :=
  s.finished.countP fun finished => finished.1 == span

/-- Each span that was started is in one place. -/
structure Conserved (s : State) : Prop where
  tidy : ∀ call ∈ s.calls, call.Tidy
  count : ∀ span, s.inTasks span + s.inCalls span + s.timesFinished span =
    if span < s.spans then 1 else 0

variable {s s' : State}

theorem Conserved.of_total (h : Conserved s) (tidy : ∀ call ∈ s'.calls, call.Tidy)
    (spans : s'.spans = s.spans)
    (total : ∀ span, s'.inTasks span + s'.inCalls span + s'.timesFinished span =
      s.inTasks span + s.inCalls span + s.timesFinished span) : Conserved s' where
  tidy := tidy
  count span := by
    rw [total, spans]
    exact h.count span

theorem tidy_set (h : ∀ call ∈ s.calls, call.Tidy) (index : Nat) {call : Call} (hcall : call.Tidy) :
    ∀ other ∈ s.calls.set index call, other.Tidy := by
  intro other hother
  cases List.mem_or_eq_of_mem_set hother with
  | inl hmem => exact h other hmem
  | inr heq => exact heq ▸ hcall

theorem Conserved.withTask (h : Conserved s) {task : Nat} {sessionTask sessionTask' : SessionTask}
    (htask : s.tasks[task]? = some sessionTask) (hspan : sessionTask'.span = sessionTask.span) :
    Conserved (s.withTask task sessionTask') := by
  refine h.of_total h.tidy rfl fun span => ?_
  have htasks := countP_set_same (fun task : SessionTask => task.span == some span) htask
    (congrArg (· == some span) hspan)
  simp only [inTasks, inCalls, timesFinished, State.withTask, htasks]

/-- The span of a task is replaced only by one that is started. -/
theorem Conserved.startSpan (h : Conserved s) {task : Nat} {sessionTask sessionTask' : SessionTask}
    (htask : s.tasks[task]? = some sessionTask) (hspan : sessionTask'.span = sessionTask.span)
    (scopeSpan : ScopeSpan) : Conserved (s.startSpan task sessionTask' scopeSpan) := by
  have hwith : Conserved (s.withTask task sessionTask') := h.withTask htask hspan
  unfold State.startSpan
  split
  · exact hwith
  · split
    · exact hwith
    · rename_i hnone
      have hold : sessionTask.span = none := by simpa [hspan] using hnone
      split
      · refine ⟨h.tidy, fun span => ?_⟩
        have hcount := h.count span
        have hset := countP_set_add (fun task : SessionTask => task.span == some span) htask
          { sessionTask' with span := some s.spans }
        have hnew : (some s.spans == some span) = decide (s.spans = span) := by
          by_cases heq : s.spans = span <;> simp [heq]
        simp only [hold, Option.none_beq_some, hnew, Bool.false_eq_true, if_false,
          decide_eq_true_eq] at hset
        simp only [inTasks, inCalls, timesFinished, State.withTask] at hcount ⊢
        by_cases heq : s.spans = span
        · subst heq
          simp only [Nat.lt_irrefl, if_false, if_true, Nat.lt_succ_self] at hcount hset ⊢
          omega
        · have hlt : span < s.spans + 1 ↔ span < s.spans := by omega
          simp only [heq, if_false, hlt] at hset ⊢
          omega
      · exact hwith

/-- A call that goes on with its span. -/
theorem Conserved.withCall (h : Conserved s) {index : Nat} {call call' : Call}
    (hcall : s.calls[index]? = some call) (hspan : call'.netSpan = call.netSpan)
    (hbegun : call'.Begun) : Conserved (s.withCall index call') := by
  refine h.of_total (tidy_set h.tidy index (.inl hbegun)) rfl fun span => ?_
  have hcalls := countP_set_same (fun call : Call => call.netSpan == some span) hcall
    (congrArg (· == some span) hspan)
  simp only [inTasks, inCalls, timesFinished, State.withCall, hcalls]

theorem Conserved.takeSpan (h : Conserved s) {index : Nat} {call : Call}
    {sessionTask : SessionTask}
    (hcall : s.calls[index]? = some { call with todo := .takeSpan :: call.todo })
    (htask : s.tasks[call.task]? = some sessionTask) :
    Conserved ((s.withTask call.task { sessionTask with span := none }).withCall index
      { call with netSpan := sessionTask.span }) := by
  have htidy := h.tidy _ (List.mem_of_getElem? hcall)
  obtain hbegun | ⟨todo, htodo, hnot, hfinish, hnone⟩ := htidy
  · exact absurd List.mem_cons_self hbegun.taken
  · cases (List.cons.inj htodo).2
    have hbegun : ({ call with netSpan := sessionTask.span } : Call).Begun :=
      ⟨hnot, fun _ => hfinish⟩
    refine h.of_total (tidy_set h.tidy index (.inl hbegun)) rfl fun span => ?_
    have htasks := countP_set_add (fun task : SessionTask => task.span == some span) htask
      { sessionTask with span := none }
    have hcalls := countP_set_add (fun call : Call => call.netSpan == some span) hcall
      { call with netSpan := sessionTask.span }
    change call.netSpan = none at hnone
    simp only [hnone, Option.none_beq_some, Bool.false_eq_true, if_false] at htasks hcalls
    simp only [inTasks, inCalls, timesFinished, State.withCall, State.withTask]
    omega

theorem Conserved.finishSpan (h : Conserved s) {index netSpan : Nat} {call call' : Call}
    (hcall : s.calls[index]? = some call) (hspan : call.netSpan = some netSpan)
    (hspan' : call'.netSpan = none) (hbegun : call'.Begun) (status : SentrySpanStatus) :
    Conserved { s.withCall index call' with
      finished := s.finished ++ [(netSpan, status)] } := by
  refine h.of_total (tidy_set h.tidy index (.inl hbegun)) rfl fun span => ?_
  have hcalls := countP_set_add (fun call : Call => call.netSpan == some span) hcall call'
  have hold : (some netSpan == some span) = (netSpan == span) := rfl
  simp only [hspan, hspan', hold, Option.none_beq_some, Bool.false_eq_true, if_false] at hcalls
  simp only [inTasks, inCalls, timesFinished, State.withCall, List.countP_append,
    List.countP_cons, List.countP_nil]
  omega

theorem Conserved.execute (h : Conserved s) {index : Nat} {call : Call}
    {sessionTask : SessionTask} {statement : Statement}
    (hcall : s.calls[index]? = some { call with todo := statement :: call.todo })
    (htask : s.tasks[call.task]? = some sessionTask) (request : Request)
    (options : Option SentryOptions) :
    Conserved (s.execute index call sessionTask request options statement) := by
  have htidy := h.tidy _ (List.mem_of_getElem? hcall)
  by_cases htake : statement = .takeSpan
  · subst htake
    exact h.takeSpan hcall htask
  · obtain ⟨htaken, hfinishes⟩ := htidy.next htake
    -- every other statement leaves the span where it is, unless it finishes it
    have hgoes (todo : List Statement) (htodo : .takeSpan ∉ todo)
        (hne : statement ≠ .finishSpan) (s' : State) (hs' : Conserved s')
        (hcalls : s'.calls = s.calls) :
        Conserved (s'.withCall index { call with todo := todo ++ call.todo }) := by
      have hindex : s'.calls[index]? = some { call with todo := statement :: call.todo } := by
        rw [hcalls, hcall]
      refine hs'.withCall hindex rfl ⟨fun hmem => ?_, fun hspan => ?_⟩
      · exact (List.mem_append.mp hmem).elim htodo htaken
      · exact List.mem_append_right _ ((hfinishes hspan).resolve_left hne)
    cases statement with
    | takeSpan => exact absurd rfl htake
    | checkState =>
      rw [State.execute]
      split
      · exact hgoes _ (by decide) (by decide) s h rfl
      · exact hgoes [] List.not_mem_nil (by decide) s h rfl
    | captureFailedRequests =>
      have hcaptured := hgoes [] List.not_mem_nil (by decide) s h rfl
      rw [State.execute]
      split
      · exact hcaptured
      · exact ⟨hcaptured.tidy, hcaptured.count⟩
    | checkBreadcrumb =>
      rw [State.execute]
      split
      · exact hgoes _ (by decide) (by decide) s h rfl
      · exact hgoes [] List.not_mem_nil (by decide) s h rfl
    | addBreadcrumb =>
      have hadded := hgoes [] List.not_mem_nil (by decide) s h rfl
      exact ⟨hadded.tidy, hadded.count⟩
    | markBreadcrumb =>
      exact hgoes [] List.not_mem_nil (by decide) _ (h.withTask htask rfl) rfl
    | setStatusCode =>
      have hset := hgoes [] List.not_mem_nil (by decide) s h rfl
      simp only [State.execute]
      split
      · exact hset
      · split
        · exact ⟨hset.tidy, hset.count⟩
        · exact hset
    | finishSpan =>
      simp only [State.execute]
      split
      · rename_i hnone
        exact h.withCall hcall rfl ⟨htaken, fun hspan => absurd hnone hspan⟩
      · rename_i netSpan hsome
        have hbegun : ({ call with netSpan := none } : Call).Begun :=
          ⟨htaken, fun hspan => (hspan rfl).elim⟩
        exact h.finishSpan hcall hsome rfl hbegun _
    | callOriginal =>
      exact hgoes [] List.not_mem_nil (by decide) _ (h.withTask htask rfl) rfl

theorem Conserved.urlSessionTaskResume (h : Conserved s) {task : Nat} {sessionTask : SessionTask}
    (htask : s.tasks[task]? = some sessionTask) (request : Request)
    (options : Option SentryOptions) (scopeSpan : ScopeSpan) (date : Nat) :
    Conserved (s.urlSessionTaskResume task sessionTask request options scopeSpan date) := by
  unfold State.urlSessionTaskResume
  split
  · exact h
  · split
    · exact h
    · split
      · exact h
      · split
        · exact h
        · refine h.startSpan htask ?_ scopeSpan
          rfl

theorem Conserved.urlSessionTaskSetState (h : Conserved s) (task : Nat)
    (newState : SessionTaskState) (request : Request) (options : Option SentryOptions) :
    Conserved (s.urlSessionTaskSetState task newState request options) := by
  refine h.of_total (fun call hcall => ?_) rfl fun span => ?_
  · cases List.mem_append.mp hcall with
    | inl hmem => exact h.tidy call hmem
    | inr hnew =>
      cases List.mem_singleton.mp hnew
      unfold Call.Tidy
      dsimp only
      split
      · exact .inr ⟨_, rfl, by simp, by simp, rfl⟩
      · exact .inl ⟨by simp, fun hspan => (hspan rfl).elim⟩
  · simp only [inTasks, inCalls, timesFinished, State.urlSessionTaskSetState, List.countP_append]
    rfl

theorem Conserved.step {input : Input} (h : Conserved s) (hstep : s.step input = some s') :
    Conserved s' := by
  cases input with
  | create =>
    cases hstep
    refine h.of_total h.tidy rfl fun span => ?_
    simp only [inTasks, inCalls, timesFinished, List.countP_append]
    rfl
  | resume task request options scopeSpan date =>
    obtain ⟨sessionTask, htask, rfl⟩ := Option.map_eq_some_iff.mp hstep
    exact h.urlSessionTaskResume htask request options scopeSpan date
  | setState task newState request options =>
    obtain ⟨sessionTask, htask, rfl⟩ := Option.map_eq_some_iff.mp hstep
    exact h.urlSessionTaskSetState task newState request options
  | proceed index request options =>
    obtain ⟨call, hcall, hrest⟩ := Option.bind_eq_some_iff.mp hstep
    obtain ⟨sessionTask, htask, hexecuted⟩ := Option.bind_eq_some_iff.mp hrest
    split at hexecuted
    · cases hexecuted
    · rename_i statement todo htodo
      cases hexecuted
      refine @Conserved.execute s h index { call with todo := todo } sessionTask statement ?_ htask
        request options
      rw [hcall, ← htodo]
  | _ =>
    cases hstep
    exact ⟨h.tidy, h.count⟩

theorem conserved_init : Conserved init where
  tidy _ hcall := absurd hcall List.not_mem_nil
  count span := by simp [inTasks, inCalls, timesFinished, init]

/-- The calls that have the span and are still to finish it. -/
def isToFinish (s : State) (span : Nat) : Nat :=
  s.calls.countP fun call => call.netSpan == some span && .finishSpan ∈ call.todo

/-- A call has no span that it does not finish. -/
theorem Conserved.inCalls_eq (h : Conserved s) (span : Nat) :
    s.inCalls span = s.isToFinish span := by
  refine List.countP_congr fun call hcall => ?_
  obtain hbegun | ⟨todo, htodo, -, hfinish, hnone⟩ := h.tidy call hcall
  · constructor
    · intro hspan
      have hfinishes := hbegun.finishes (by rw [beq_iff_eq.mp hspan]; exact Option.some_ne_none _)
      simpa [hspan] using hfinishes
    · intro hboth
      exact (Bool.and_eq_true_iff.mp hboth).1
  · simp [hnone]

end State

/-- However the calls of any number of tasks are interleaved, a span that was started is with one
task, or with one call that is still to finish it, or was finished once; and no other span is. -/
theorem span_in_one_place (inputs : List Input) (s : State)
    (run : exec State.step .init inputs = some s) (span : Nat) :
    s.inTasks span + s.isToFinish span + s.timesFinished span = if span < s.spans then 1 else 0 := by
  have halways : Always State.step State.Conserved .init inputs :=
    always_of_invariant (fun _ h => h) (fun _ _ _ => State.Conserved.step) State.conserved_init
      inputs
  have hconserved := halways.exec run
  rw [← hconserved.inCalls_eq]
  exact hconserved.count span

/-- The request of a task that was answered. -/
def answered : Request := ⟨true, some ⟨some "a", "/", "https://a/"⟩, some (.http 404), false⟩

def someOptions : SentryOptions := ⟨none, [], []⟩

/-- A running task is cancelled while the call that completes it goes on. -/
def cancelWhileCompleting : List Input :=
  [.enableNetworkTracking, .enableNetworkBreadcrumbs, .create,
    .resume 0 answered (some someOptions) .startsChild 7,
    .setState 0 .running answered (some someOptions), .proceed 0 answered (some someOptions),
    .setState 0 .completed answered (some someOptions),
    .setState 0 .canceling answered (some someOptions)] ++
    (List.replicate 9 [.proceed 1 answered (some someOptions),
      .proceed 2 answered (some someOptions)]).flatten

theorem span_in_one_place_cancelWhileCompleting :
    ∃ s, exec State.step .init cancelWhileCompleting = some s ∧
      s.finished = [(0, .notFound)] ∧
      s.inTasks 0 + s.isToFinish 0 + s.timesFinished 0 = if 0 < s.spans then 1 else 0 :=
  ⟨_, rfl, rfl, span_in_one_place cancelWhileCompleting _ rfl 0⟩

end SentryCocoa.NetworkTracker
