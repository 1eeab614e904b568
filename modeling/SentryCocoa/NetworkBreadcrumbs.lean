import SentryCocoa.NetworkTrackerRuns

/-! The breadcrumbs of the requests. Whether a task has one is asked, and noted, in different
statements. -/
namespace SentryCocoa.NetworkTracker
open SentryCocoa.Library.Machine

/-- What a call can have left to do. -/
def remainders : List (List Statement) :=
  [[.takeSpan, .checkState, .finishSpan, .callOriginal],
    [.checkState, .finishSpan, .callOriginal],
    [.captureFailedRequests, .checkBreadcrumb, .setStatusCode, .finishSpan, .callOriginal],
    [.checkBreadcrumb, .setStatusCode, .finishSpan, .callOriginal],
    [.addBreadcrumb, .markBreadcrumb, .setStatusCode, .finishSpan, .callOriginal],
    [.markBreadcrumb, .setStatusCode, .finishSpan, .callOriginal],
    [.setStatusCode, .finishSpan, .callOriginal],
    [.finishSpan, .callOriginal],
    [.callOriginal],
    []]

/-- What follows a statement. -/
theorem remainders_cons {statement : Statement} {todo : List Statement}
    (h : statement :: todo ∈ remainders) :
    todo ∈ remainders ∧ .addBreadcrumb ∉ todo ∧
      (statement = .addBreadcrumb ↔ .markBreadcrumb ∈ todo) ∧
      (statement = .checkState →
        [.captureFailedRequests, .checkBreadcrumb, .setStatusCode] ++ todo ∈ remainders) ∧
      (statement = .checkBreadcrumb →
        [.addBreadcrumb, .markBreadcrumb] ++ todo ∈ remainders) := by
  simp only [remainders, List.mem_cons, List.cons.injEq, List.not_mem_nil, or_false,
    reduceCtorEq] at h
  rcases h with ⟨rfl, rfl⟩ | ⟨rfl, rfl⟩ | ⟨rfl, rfl⟩ | ⟨rfl, rfl⟩ | ⟨rfl, rfl⟩ | ⟨rfl, rfl⟩ |
    ⟨rfl, rfl⟩ | ⟨rfl, rfl⟩ | ⟨rfl, rfl⟩ <;> decide

namespace State

def crumbs (s : State) (task : Nat) : Nat :=
  s.breadcrumbs.countP fun breadcrumb => breadcrumb.task == task

/-- A call has the breadcrumb of its task in hand. -/
def isAdding (s : State) (task : Nat) : Prop :=
  ∃ call ∈ s.calls, call.task = task ∧ .markBreadcrumb ∈ call.todo

/-- The state of a task is set by one call at a time. -/
structure Serial (s : State) : Prop where
  remainder : ∀ call ∈ s.calls, call.todo ∈ remainders
  unique : ∀ (i j : Nat) (call call' : Call), s.calls[i]? = some call →
    s.calls[j]? = some call' → call.task = call'.task → call.todo ≠ [] → call'.todo ≠ [] → i = j
  known : ∀ breadcrumb ∈ s.breadcrumbs, breadcrumb.task < s.tasks.length
  once : ∀ task, s.crumbs task ≤ 1
  added : ∀ call ∈ s.calls, .addBreadcrumb ∈ call.todo → s.crumbs call.task = 0
  marked : ∀ (task : Nat) (sessionTask : SessionTask), s.tasks[task]? = some sessionTask →
    sessionTask.hasBreadcrumb = false → ¬s.isAdding task → s.crumbs task = 0

variable {s s' : State}

/-- A call that goes on for its task. -/
structure Continues (s s' : State) (index : Nat) (call call' : Call) : Prop where
  found : s.calls[index]? = some call
  running : call.todo ≠ []
  calls : s'.calls = s.calls.set index call'
  task : call'.task = call.task
  remainder : call'.todo ∈ remainders

namespace Continues

variable {index : Nat} {call call' : Call} (h : Continues s s' index call call')
include h

theorem getElem? {i : Nat} {other : Call} (hother : s'.calls[i]? = some other) :
    (i = index ∧ other = call') ∨ (i ≠ index ∧ s.calls[i]? = some other) := by
  rw [h.calls] at hother
  by_cases heq : i = index
  · subst heq
    have hlt := (List.getElem?_eq_some_iff.mp h.found).1
    rw [List.getElem?_set_self hlt] at hother
    exact .inl ⟨rfl, (Option.some.inj hother).symm⟩
  · rw [List.getElem?_set_ne (Ne.symm heq)] at hother
    exact .inr ⟨heq, hother⟩

theorem mem {other : Call} (hother : other ∈ s'.calls) : other = call' ∨ other ∈ s.calls := by
  rw [h.calls] at hother
  exact (List.mem_or_eq_of_mem_set hother).symm

theorem unique (hserial : Serial s) (i j : Nat) (other other' : Call)
    (hi : s'.calls[i]? = some other) (hj : s'.calls[j]? = some other')
    (htask : other.task = other'.task) (hne : other.todo ≠ []) (hne' : other'.todo ≠ []) :
    i = j := by
  rcases h.getElem? hi with ⟨rfl, rfl⟩ | ⟨hi', hother⟩
  · rcases h.getElem? hj with ⟨rfl, rfl⟩ | ⟨hj', hother'⟩
    · rfl
    · exact hserial.unique i j call other' h.found hother' (h.task.symm.trans htask) h.running hne'
  · rcases h.getElem? hj with ⟨rfl, rfl⟩ | ⟨hj', hother'⟩
    · exact hserial.unique i j other call hother h.found (htask.trans h.task) hne h.running
    · exact hserial.unique i j other other' hother hother' htask hne hne'

/-- What another call has in hand stays there. -/
theorem isAdding {task : Nat} (hadding : s.isAdding task)
    (hmark : .markBreadcrumb ∈ call.todo → call.task = task → .markBreadcrumb ∈ call'.todo) :
    s'.isAdding task := by
  obtain ⟨other, hother, htask, hmem⟩ := hadding
  obtain ⟨i, hi⟩ := List.getElem?_of_mem hother
  by_cases heq : i = index
  · subst heq
    cases h.found.symm.trans hi
    have hlt := (List.getElem?_eq_some_iff.mp h.found).1
    refine ⟨call', ?_, h.task.trans htask, hmark hmem htask⟩
    rw [h.calls]
    exact List.mem_set hlt call'
  · refine ⟨other, ?_, htask, hmem⟩
    refine List.mem_of_getElem? (i := i) ?_
    rw [h.calls, List.getElem?_set_ne (Ne.symm heq)]
    exact hi

/-- No other call for the task of a running one has a breadcrumb in hand. -/
theorem not_isAdding (hserial : Serial s) (hmark : .markBreadcrumb ∉ call.todo) :
    ¬s.isAdding call.task := by
  rintro ⟨other, hother, htask, hmem⟩
  obtain ⟨i, hi⟩ := List.getElem?_of_mem hother
  cases hserial.unique i index other call hi h.found htask (List.ne_nil_of_mem hmem) h.running
  cases h.found.symm.trans hi
  exact hmark hmem

end Continues

/-- A call that leaves the breadcrumbs, and the notes of them, as they are. -/
theorem Serial.goes (h : Serial s) {index : Nat} {call call' : Call}
    (hcontinues : Continues s s' index call call') (breadcrumbs : s'.breadcrumbs = s.breadcrumbs)
    (length : s'.tasks.length = s.tasks.length)
    (tasks : ∀ (task : Nat) (sessionTask' : SessionTask), s'.tasks[task]? = some sessionTask' →
      ∃ sessionTask, s.tasks[task]? = some sessionTask ∧
        sessionTask'.hasBreadcrumb = sessionTask.hasBreadcrumb)
    (hadd : .addBreadcrumb ∈ call'.todo → s.crumbs call.task = 0)
    (hmark : .markBreadcrumb ∈ call.todo → .markBreadcrumb ∈ call'.todo) : Serial s' := by
  have hcrumbs (task : Nat) : s'.crumbs task = s.crumbs task := by
    rw [crumbs, breadcrumbs]
    rfl
  exact {
    remainder := fun other hother => (hcontinues.mem hother).elim
      (fun heq => heq ▸ hcontinues.remainder) (h.remainder other)
    unique := hcontinues.unique h
    known := by
      rw [breadcrumbs, length]
      exact h.known
    once := fun task => hcrumbs task ▸ h.once task
    added := fun other hother hmem => by
      rw [hcrumbs]
      rcases hcontinues.mem hother with rfl | hold
      · rw [hcontinues.task]
        exact hadd hmem
      · exact h.added other hold hmem
    marked := fun task sessionTask' htask hnone hadding => by
      obtain ⟨sessionTask, hold, hsame⟩ := tasks task sessionTask' htask
      rw [hcrumbs]
      refine h.marked task sessionTask hold (hsame ▸ hnone) fun hbefore => hadding ?_
      exact hcontinues.isAdding hbefore fun hmem _ => hmark hmem }

theorem tasks_set {tasks : List SessionTask} {task : Nat} {sessionTask sessionTask' : SessionTask}
    (htask : tasks[task]? = some sessionTask)
    (hsame : sessionTask'.hasBreadcrumb = sessionTask.hasBreadcrumb) (other : Nat)
    (found : SessionTask) (hfound : (tasks.set task sessionTask')[other]? = some found) :
    ∃ old, tasks[other]? = some old ∧ found.hasBreadcrumb = old.hasBreadcrumb := by
  by_cases heq : task = other
  · subst heq
    have hlt := (List.getElem?_eq_some_iff.mp htask).1
    rw [List.getElem?_set_self hlt] at hfound
    cases hfound
    exact ⟨sessionTask, htask, hsame⟩
  · rw [List.getElem?_set_ne heq] at hfound
    exact ⟨found, hfound, rfl⟩

theorem Serial.addBreadcrumb (h : Serial s) {index : Nat} {call call' : Call}
    (hcontinues : Continues s s' index call call') (hadd : .addBreadcrumb ∈ call.todo)
    (hmark : .markBreadcrumb ∈ call'.todo) (hnot : .addBreadcrumb ∉ call'.todo)
    {breadcrumb : SentryBreadcrumb} (htask : breadcrumb.task = call.task)
    (hlt : call.task < s.tasks.length) (tasks : s'.tasks = s.tasks)
    (breadcrumbs : s'.breadcrumbs = s.breadcrumbs ++ [breadcrumb]) : Serial s' := by
  have hcrumbs (task : Nat) :
      s'.crumbs task = s.crumbs task + if call.task = task then 1 else 0 := by
    rw [crumbs, breadcrumbs, List.countP_append, List.countP_cons, List.countP_nil, htask]
    simp [crumbs]
  have hzero := h.added call (List.mem_of_getElem? hcontinues.found) hadd
  have hunique (other : Call) (hother : other ∈ s.calls) (hmem : .addBreadcrumb ∈ other.todo)
      (hsame : other.task = call.task) : other = call := by
    obtain ⟨i, hi⟩ := List.getElem?_of_mem hother
    cases h.unique i index other call hi hcontinues.found hsame (List.ne_nil_of_mem hmem)
      hcontinues.running
    exact Option.some.inj (hi.symm.trans hcontinues.found)
  have hadding : s'.isAdding call.task := by
    have hlt' := (List.getElem?_eq_some_iff.mp hcontinues.found).1
    exact ⟨call', hcontinues.calls ▸ List.mem_set hlt' call', hcontinues.task, hmark⟩
  exact {
    remainder := fun other hother => (hcontinues.mem hother).elim
      (fun heq => heq ▸ hcontinues.remainder) (h.remainder other)
    unique := hcontinues.unique h
    known := by
      rw [breadcrumbs, tasks]
      intro other hother
      cases List.mem_append.mp hother with
      | inl hold => exact h.known other hold
      | inr hnew =>
        cases List.mem_singleton.mp hnew
        rw [htask]
        exact hlt
    once := fun task => by
      rw [hcrumbs]
      split
      · rename_i heq
        rw [← heq, hzero]
      · exact h.once task
    added := fun other hother hmem => by
      obtain ⟨i, hi⟩ := List.getElem?_of_mem hother
      rcases hcontinues.getElem? hi with ⟨-, rfl⟩ | ⟨hne, hold⟩
      · exact absurd hmem hnot
      · rw [hcrumbs, h.added other (List.mem_of_getElem? hold) hmem, if_neg]
        intro hsame
        refine hne (h.unique i index other call hold hcontinues.found hsame.symm
          (List.ne_nil_of_mem hmem) hcontinues.running)
    marked := fun task sessionTask hsession hnone hnotAdding => by
      rw [hcrumbs]
      by_cases heq : call.task = task
      · exact absurd (heq ▸ hadding) hnotAdding
      · rw [if_neg heq]
        refine h.marked task sessionTask (tasks ▸ hsession) hnone fun hbefore => hnotAdding ?_
        exact hcontinues.isAdding hbefore fun _ hsame => absurd hsame heq }

theorem Serial.markBreadcrumb (h : Serial s) {index : Nat} {call call' : Call}
    (hcontinues : Continues s s' index call call') (hnot : .addBreadcrumb ∉ call'.todo)
    {sessionTask : SessionTask} (htask : s.tasks[call.task]? = some sessionTask)
    (tasks : s'.tasks = s.tasks.set call.task { sessionTask with hasBreadcrumb := true })
    (breadcrumbs : s'.breadcrumbs = s.breadcrumbs) : Serial s' := by
  have hcrumbs (task : Nat) : s'.crumbs task = s.crumbs task := by
    rw [crumbs, breadcrumbs]
    rfl
  exact {
    remainder := fun other hother => (hcontinues.mem hother).elim
      (fun heq => heq ▸ hcontinues.remainder) (h.remainder other)
    unique := hcontinues.unique h
    known := by
      rw [breadcrumbs, tasks, List.length_set]
      exact h.known
    once := fun task => hcrumbs task ▸ h.once task
    added := fun other hother hmem => by
      rw [hcrumbs]
      rcases hcontinues.mem hother with rfl | hold
      · exact absurd hmem hnot
      · exact h.added other hold hmem
    marked := fun task sessionTask' hsession hnone hadding => by
      rw [hcrumbs]
      rw [tasks] at hsession
      by_cases heq : call.task = task
      · subst heq
        rw [List.getElem?_set_self (List.getElem?_eq_some_iff.mp htask).1] at hsession
        cases hsession
        cases hnone
      · rw [List.getElem?_set_ne heq] at hsession
        refine h.marked task sessionTask' hsession hnone fun hbefore => hadding ?_
        exact hcontinues.isAdding hbefore fun _ hsame => absurd hsame heq }

theorem Serial.execute (h : Serial s) {index : Nat} {call : Call} {sessionTask : SessionTask}
    {statement : Statement}
    (hcall : s.calls[index]? = some { call with todo := statement :: call.todo })
    (htask : s.tasks[call.task]? = some sessionTask) (request : Request)
    (options : Option SentryOptions) :
    Serial (s.execute index call sessionTask request options statement) := by
  obtain ⟨hrest, hnotAdd, hmarks, hstate, hbreadcrumb⟩ :=
    remainders_cons (h.remainder _ (List.mem_of_getElem? hcall))
  have hlt : call.task < s.tasks.length := (List.getElem?_eq_some_iff.mp htask).1
  have hcontinues {s' : State} {call' : Call} (hcalls : s'.calls = s.calls.set index call')
      (hsame : call'.task = call.task) (hremainder : call'.todo ∈ remainders) :
      Continues s s' index { call with todo := statement :: call.todo } call' :=
    ⟨hcall, List.cons_ne_nil _ _, hcalls, hsame, hremainder⟩
  have hmark (hne : statement ≠ .markBreadcrumb)
      (hmem : .markBreadcrumb ∈ statement :: call.todo) : .markBreadcrumb ∈ call.todo :=
    (List.mem_cons.mp hmem).resolve_left (Ne.symm hne)
  -- a statement that leaves the breadcrumbs alone goes on with the rest or with more
  have hgoes {s' : State} {call' : Call} (hcalls : s'.calls = s.calls.set index call')
      (hsame : call'.task = call.task) (htodo : call'.todo = call.todo)
      (hne : statement ≠ .markBreadcrumb) (hcrumbs : s'.breadcrumbs = s.breadcrumbs)
      (htasks : s'.tasks = s.tasks ∨ ∃ sessionTask' : SessionTask,
        sessionTask'.hasBreadcrumb = sessionTask.hasBreadcrumb ∧
          s'.tasks = s.tasks.set call.task sessionTask') :
      Serial s' := by
    refine h.goes (hcontinues hcalls hsame (htodo ▸ hrest)) hcrumbs ?_ ?_
      (fun hadd => absurd (htodo ▸ hadd) hnotAdd) fun hmem => htodo ▸ hmark hne hmem
    · rcases htasks with htasks | ⟨sessionTask', -, htasks⟩
      · rw [htasks]
      · rw [htasks, List.length_set]
    · intro task found hfound
      rcases htasks with htasks | ⟨sessionTask', hflag, htasks⟩
      · exact ⟨found, htasks ▸ hfound, rfl⟩
      · exact tasks_set htask hflag task found (htasks ▸ hfound)
  cases statement with
  | takeSpan =>
    exact hgoes rfl rfl rfl (by decide) rfl (.inr ⟨{ sessionTask with span := none }, rfl, rfl⟩)
  | checkState =>
    rw [State.execute]
    split
    · refine h.goes (hcontinues rfl rfl (hstate rfl)) rfl rfl (fun task found hfound => ?_)
        (fun hadd => ?_) fun hmem => ?_
      · exact ⟨found, hfound, rfl⟩
      · have hmem : Statement.addBreadcrumb ∈ call.todo := by simpa using hadd
        exact absurd hmem hnotAdd
      · exact List.mem_append_right _ (hmark (by decide) hmem)
    · exact hgoes rfl rfl rfl (by decide) rfl (.inl rfl)
  | captureFailedRequests =>
    rw [State.execute]
    split <;> exact hgoes rfl rfl rfl (by decide) rfl (.inl rfl)
  | checkBreadcrumb =>
    rw [State.execute]
    split
    · rename_i hnone
      have hgone : Continues s (s.withCall index call) index
          { call with todo := .checkBreadcrumb :: call.todo } call := hcontinues rfl rfl hrest
      have hzero : s.crumbs call.task = 0 := by
        refine h.marked call.task sessionTask htask (by simpa using hnone.2) ?_
        refine hgone.not_isAdding h fun hmem => ?_
        exact absurd (hmarks.mpr (hmark (by decide) hmem)) (by decide)
      refine h.goes (hcontinues rfl rfl (hbreadcrumb rfl)) rfl rfl (fun task found hfound => ?_)
        (fun _ => hzero) fun hmem => ?_
      · exact ⟨found, hfound, rfl⟩
      · exact List.mem_append_right _ (hmark (by decide) hmem)
    · exact hgoes rfl rfl rfl (by decide) rfl (.inl rfl)
  | addBreadcrumb =>
    exact h.addBreadcrumb (hcontinues rfl rfl hrest) List.mem_cons_self (hmarks.mp rfl) hnotAdd
      rfl hlt rfl rfl
  | markBreadcrumb => exact h.markBreadcrumb (hcontinues rfl rfl hrest) hnotAdd htask rfl rfl
  | setStatusCode =>
    simp only [State.execute]
    split
    · exact hgoes rfl rfl rfl (by decide) rfl (.inl rfl)
    · split <;> exact hgoes rfl rfl rfl (by decide) rfl (.inl rfl)
  | finishSpan =>
    simp only [State.execute]
    split <;> exact hgoes rfl rfl rfl (by decide) rfl (.inl rfl)
  | callOriginal =>
    exact hgoes rfl rfl rfl (by decide) rfl
      (.inr ⟨{ sessionTask with state := call.newState }, rfl, rfl⟩)

/-- A state that differs in neither the calls nor the breadcrumbs. -/
theorem Serial.of_same (h : Serial s) (calls : s'.calls = s.calls)
    (breadcrumbs : s'.breadcrumbs = s.breadcrumbs) (length : s.tasks.length ≤ s'.tasks.length)
    (tasks : ∀ (task : Nat) (sessionTask' : SessionTask), s'.tasks[task]? = some sessionTask' →
      sessionTask'.hasBreadcrumb = false → s.crumbs task = 0 ∨
        ∃ sessionTask, s.tasks[task]? = some sessionTask ∧ sessionTask.hasBreadcrumb = false) :
    Serial s' := by
  have hcrumbs (task : Nat) : s'.crumbs task = s.crumbs task := by
    rw [crumbs, breadcrumbs]
    rfl
  exact {
    remainder := calls ▸ h.remainder
    unique := calls ▸ h.unique
    known := fun breadcrumb hmem => (h.known breadcrumb (breadcrumbs ▸ hmem)).trans_le length
    once := fun task => hcrumbs task ▸ h.once task
    added := fun call hcall hmem => by
      rw [hcrumbs]
      exact h.added call (calls ▸ hcall) hmem
    marked := fun task sessionTask' htask hnone hadding => by
      rw [hcrumbs]
      rcases tasks task sessionTask' htask hnone with hzero | ⟨sessionTask, hold, hbefore⟩
      · exact hzero
      · refine h.marked task sessionTask hold hbefore fun hin => hadding ?_
        rw [State.isAdding, calls]
        exact hin }

/-- A task that is not there yet has no breadcrumb. -/
theorem Serial.crumbs_eq_zero (h : Serial s) {task : Nat} (hge : s.tasks.length ≤ task) :
    s.crumbs task = 0 := by
  refine List.countP_eq_zero.mpr fun breadcrumb hmem heq => ?_
  have hlt := h.known breadcrumb hmem
  rw [beq_iff_eq.mp heq] at hlt
  exact Nat.not_lt.mpr hge hlt

theorem Serial.create (h : Serial s) :
    Serial { s with tasks := s.tasks ++ [⟨.suspended, none, none, false⟩] } := by
  refine h.of_same rfl rfl (by simp) fun task sessionTask' htask hnone => ?_
  by_cases hlt : task < s.tasks.length
  · rw [List.getElem?_append_left hlt] at htask
    exact .inr ⟨sessionTask', htask, hnone⟩
  · exact .inl (h.crumbs_eq_zero (Nat.not_lt.mp hlt))

theorem Serial.withTask (h : Serial s) {task : Nat} {sessionTask sessionTask' : SessionTask}
    (htask : s.tasks[task]? = some sessionTask)
    (hsame : sessionTask'.hasBreadcrumb = sessionTask.hasBreadcrumb) :
    Serial (s.withTask task sessionTask') := by
  refine h.of_same rfl rfl (by simp [State.withTask]) fun other found hfound hnone => ?_
  obtain ⟨old, hold, heq⟩ := tasks_set htask hsame other found hfound
  exact .inr ⟨old, hold, heq ▸ hnone⟩

theorem Serial.startSpan (h : Serial s) {task : Nat} {sessionTask sessionTask' : SessionTask}
    (htask : s.tasks[task]? = some sessionTask)
    (hsame : sessionTask'.hasBreadcrumb = sessionTask.hasBreadcrumb) (scopeSpan : ScopeSpan) :
    Serial (s.startSpan task sessionTask' scopeSpan) := by
  unfold State.startSpan
  split
  · exact h.withTask htask hsame
  · split
    · exact h.withTask htask hsame
    · split
      · have hstarted : Serial (s.withTask task { sessionTask' with span := some s.spans }) :=
          h.withTask htask hsame
        exact ⟨hstarted.remainder, hstarted.unique, hstarted.known, hstarted.once, hstarted.added,
          hstarted.marked⟩
      · exact h.withTask htask hsame

theorem Serial.urlSessionTaskResume (h : Serial s) {task : Nat} {sessionTask : SessionTask}
    (htask : s.tasks[task]? = some sessionTask) (request : Request)
    (options : Option SentryOptions) (scopeSpan : ScopeSpan) (date : Nat) :
    Serial (s.urlSessionTaskResume task sessionTask request options scopeSpan date) := by
  unfold State.urlSessionTaskResume
  split
  · exact h
  · split
    · exact h
    · split
      · exact h
      · split
        · exact h
        · refine h.startSpan htask ?_ scopeSpan
          rfl

end State

/-- No other call for the task is running. -/
def isSerial (s : State) : Input → Bool
  | .setState task _ _ _ => s.calls.all fun call => call.task != task || call.todo.isEmpty
  | _ => true

namespace State

variable {s s' : State}

theorem Serial.urlSessionTaskSetState (h : Serial s) {task : Nat} {newState : SessionTaskState}
    {request : Request} {options : Option SentryOptions}
    (hserial : isSerial s (.setState task newState request options) = true) :
    Serial (s.urlSessionTaskSetState task newState request options) := by
  have hidle (call : Call) (hcall : call ∈ s.calls) (htask : call.task = task) :
      call.todo = [] := by
    have hall := List.all_eq_true.mp hserial call hcall
    simpa [htask] using hall
  obtain ⟨call', hcalls, htask, htodo⟩ : ∃ call' : Call,
      (s.urlSessionTaskSetState task newState request options).calls = s.calls ++ [call'] ∧
        call'.task = task ∧
        (call'.todo = [.takeSpan, .checkState, .finishSpan, .callOriginal] ∨
          call'.todo = [.callOriginal]) := by
    refine ⟨_, rfl, rfl, ?_⟩
    dsimp only
    split
    · exact .inl rfl
    · exact .inr rfl
  have hremainder : call'.todo ∈ remainders ∧ .addBreadcrumb ∉ call'.todo := by
    rcases htodo with htodo | htodo <;> rw [htodo] <;> decide
  have hold {i : Nat} {call : Call} (hi : (s.calls ++ [call'])[i]? = some call) :
      s.calls[i]? = some call ∨ (i = s.calls.length ∧ call = call') := by
    by_cases hlt : i < s.calls.length
    · exact .inl (List.getElem?_append_left hlt ▸ hi)
    · rw [List.getElem?_append_right (Nat.not_lt.mp hlt), List.getElem?_singleton] at hi
      split at hi
      · exact .inr ⟨by omega, (Option.some.inj hi).symm⟩
      · cases hi
  exact {
    remainder := fun call hcall => by
      rw [hcalls] at hcall
      cases List.mem_append.mp hcall with
      | inl hmem => exact h.remainder call hmem
      | inr hnew => exact List.mem_singleton.mp hnew ▸ hremainder.1
    unique := fun i j call other hi hj hsame hne hne' => by
      rw [hcalls] at hi hj
      rcases hold hi with hi' | ⟨rfl, rfl⟩
      · rcases hold hj with hj' | ⟨rfl, rfl⟩
        · exact h.unique i j call other hi' hj' hsame hne hne'
        · exact absurd (hidle call (List.mem_of_getElem? hi') (hsame.trans htask)) hne
      · rcases hold hj with hj' | ⟨rfl, rfl⟩
        · exact absurd (hidle other (List.mem_of_getElem? hj') (hsame.symm.trans htask)) hne'
        · rfl
    known := h.known
    once := h.once
    added := fun call hcall hmem => by
      rw [hcalls] at hcall
      cases List.mem_append.mp hcall with
      | inl hin => exact h.added call hin hmem
      | inr hnew => exact absurd (List.mem_singleton.mp hnew ▸ hmem) hremainder.2
    marked := fun task' sessionTask hsession hnone hadding => by
      refine h.marked task' sessionTask hsession hnone fun hbefore => hadding ?_
      obtain ⟨call, hcall, hrest⟩ := hbefore
      exact ⟨call, hcalls ▸ List.mem_append_left _ hcall, hrest⟩ }

theorem Serial.step {input : Input} (h : Serial s) (hserial : isSerial s input = true)
    (hstep : s.step input = some s') : Serial s' := by
  cases input with
  | create =>
    cases hstep
    exact h.create
  | resume task request options scopeSpan date =>
    obtain ⟨sessionTask, htask, rfl⟩ := Option.map_eq_some_iff.mp hstep
    exact h.urlSessionTaskResume htask request options scopeSpan date
  | setState task newState request options =>
    obtain ⟨sessionTask, htask, rfl⟩ := Option.map_eq_some_iff.mp hstep
    exact h.urlSessionTaskSetState hserial
  | proceed index request options =>
    obtain ⟨call, hcall, hrest⟩ := Option.bind_eq_some_iff.mp hstep
    obtain ⟨sessionTask, htask, hexecuted⟩ := Option.bind_eq_some_iff.mp hrest
    split at hexecuted
    · cases hexecuted
    · rename_i statement todo htodo
      cases hexecuted
      refine @Serial.execute s h index { call with todo := todo } sessionTask statement ?_ htask
        request options
      rw [hcall, ← htodo]
  | _ =>
    cases hstep
    exact ⟨h.remainder, h.unique, h.known, h.once, h.added, h.marked⟩

theorem serial_init : Serial init where
  remainder _ hcall := absurd hcall List.not_mem_nil
  unique i _ _ _ hi := by simp [init] at hi
  known _ hmem := absurd hmem List.not_mem_nil
  once _ := Nat.zero_le 1
  added _ hcall := absurd hcall List.not_mem_nil
  marked _ _ _ _ _ := rfl

end State

/-- A task gets at most one breadcrumb when the calls for one task do not overlap. The calls for
different tasks may. -/
theorem breadcrumb_at_most_once (inputs : List Input) (s : State)
    (serial : Allowed State.step (fun s input => isSerial s input = true) .init inputs)
    (run : exec State.step .init inputs = some s) (task : Nat) : s.crumbs task ≤ 1 := by
  have halways : Always State.step State.Serial .init inputs :=
    always_of_allowed (fun _ h => h) (fun _ _ _ => State.Serial.step) State.serial_init serial
  exact (halways.exec run).once task

/-- Two tasks are completed at the same time. -/
def twoTasks : List Input :=
  [.enableNetworkBreadcrumbs, .create, .create,
    .setState 0 .running answered none, .setState 1 .running answered none,
    .proceed 0 answered none, .proceed 1 answered none,
    .setState 0 .completed answered none, .setState 1 .completed answered none] ++
    (List.replicate 9 [.proceed 2 answered none, .proceed 3 answered none]).flatten

theorem breadcrumb_at_most_once_twoTasks :
    ∃ s, exec State.step .init twoTasks = some s ∧ s.breadcrumbs.length = 2 ∧ s.crumbs 0 ≤ 1 :=
  ⟨_, rfl, rfl, breadcrumb_at_most_once twoTasks _ (by decide) rfl 0⟩

end SentryCocoa.NetworkTracker
