import SentryCocoa.PerformanceTracker

/-! The stack of active spans over a whole run. Outside of all blocks it has at most the umbrella
transaction of one controller, and inside of them each block leaves it as it was. -/
namespace SentryCocoa.PerformanceTracker.State
open SentryCocoa.Tracer SentryCocoa.Library.Machine SentryCocoa.Foundation

/-! The law. -/

/-- A `measureSpan` or `activateSpan` block is running. -/
def inBlock (state : State) : Bool := state.running.flatten.any Pending.isBlock

structure Correct (state : State) : Prop where
  /-- After each block the stack is what it was before. -/
  restored : ∀ block ∈ state.ended, block.2 = block.1
  live : state.inBlock = false →
    ∀ spanId ∈ state.activeSpanStack, state.isFinished spanId = false
  /-- Without a live umbrella the next span is a new transaction. -/
  starts : state.inBlock = false →
    (∀ spanId ∈ state.activeSpanStack, state.isFinished spanId = true) →
    ∀ moment name operation, (state.startSpanWithName moment name operation).2 =
      .tracer state.tracers.length

/-! The condition. -/

/-- The stack from before the outermost block. -/
def bottom : List Pending → List SpanId → List SpanId
  | [], stack => stack
  | .endMeasureSpan _ before :: rest, _ => bottom rest before
  | .endActivateSpan _ before :: rest, _ => bottom rest before
  | _ :: rest, stack => bottom rest stack

def umbrella (state : State) : List SpanId := bottom state.running.flatten state.activeSpanStack

/-- The span of the controller whose transaction will end outside of all blocks. -/
def ending : List Pending → Option SpanId
  | [] => none
  | .endTransaction _ spanId _ :: rest =>
    if rest.any Pending.isBlock then ending rest else some spanId
  | _ :: rest => ending rest

/-- A controller that is not tracked yet creates its transaction. -/
def creates (state : State) : Event → Bool
  | .loadView controller =>
    (state.controllers controller).isClassInApp &&
      !(state.controllers controller).shouldExcludeClass &&
      !(state.controllers controller).spansInExecution.contains "loadView" &&
      (state.controllers controller).spanId.isNone
  | .viewDidLoad controller =>
    !(state.controllers controller).spansInExecution.contains "viewDidLoad" &&
      (state.controllers controller).spanId.isNone
  | _ => false

/-- A transaction of a controller that ends in a block is a child that is still in the table. -/
def endsChild (moments : Nat → Moment) (outer : List Pending) : List Pending → State → Bool
  | [], _ => true
  | .endTransaction controller spanId status :: rest, state =>
    (!(rest ++ outer).any Pending.isBlock || state.isSpanAlive spanId && spanId.hasParent) &&
      endsChild moments outer rest
        (state.runPending (moments rest.length) (.endTransaction controller spanId status))
  | pending :: rest, state =>
    endsChild moments outer rest (state.runPending (moments rest.length) pending)

structure Orderly (state : State) (input : Event × (Nat → Moment)) : Prop where
  /-- The umbrella transaction does not finish, but in the callback of its controller that pops
  it. -/
  finishes : ∀ tracer state', state.step input = some state' →
    state.umbrella = [.tracer tracer] → state.isFinished (.tracer tracer) = false →
    state'.isFinished (.tracer tracer) = true →
    ending state.running.flatten = some (.tracer tracer)
  /-- A new umbrella is not pushed in a block. -/
  creates : state.creates input.1 = true → state.activeSpanStack = [] → state.inBlock = false
  /-- The stack is not popped in a block. -/
  returns : input.1 = .callbackReturns → ∀ pending running, state.running = pending :: running →
    endsChild input.2 running.flatten pending { state with running := running } = true

/-! What leaves the stack alone. -/

structure SameStack (state state' : State) : Prop where
  stack : state'.activeSpanStack = state.activeSpanStack
  running : state'.running = state.running
  ended : state'.ended = state.ended

theorem SameStack.refl (state : State) : SameStack state state := ⟨rfl, rfl, rfl⟩

theorem SameStack.trans {first second third : State} (h : SameStack first second)
    (h' : SameStack second third) : SameStack first third :=
  ⟨h'.stack.trans h.stack, h'.running.trans h.running, h'.ended.trans h.ended⟩

section SameStack
variable (state : State) (moment : Moment)

theorem removeSpan_sameStack (spanId : SpanId) : SameStack state (state.removeSpan spanId) :=
  ⟨rfl, rfl, rfl⟩

theorem withTracer_sameStack (tracer : Nat) (f : SentryTracer → SentryTracer) :
    SameStack state (state.withTracer tracer f) := by
  unfold withTracer tracerDidFinish removeSpan
  dsimp only
  split
  · exact ⟨rfl, rfl, rfl⟩
  · exact ⟨rfl, rfl, rfl⟩

theorem bindToScope_sameStack (tracer : Option Nat) (operation : Option String) :
    SameStack state (state.bindToScope tracer operation) := ⟨rfl, rfl, rfl⟩

theorem updateController_sameStack (controller : Nat) (f : UIViewController → UIViewController) :
    SameStack state (state.updateController controller f) := ⟨rfl, rfl, rfl⟩

theorem useSpan_sameStack : SameStack state (state.useSpan moment).1 := by
  unfold useSpan
  split
  · split
    · exact state.withTracer_sameStack _ _
    · exact SameStack.refl state
  · exact SameStack.refl state

theorem startTransaction_sameStack (operation : String) :
    SameStack state (state.startTransaction moment operation).1 := by
  have hused := state.useSpan_sameStack moment
  unfold startTransaction
  dsimp only
  split
  · exact hused.trans ⟨rfl, rfl, rfl⟩
  · exact hused.trans ⟨rfl, rfl, rfl⟩

theorem startChild_sameStack (activeSpan : SpanId) (name operation : String) :
    SameStack state (state.startChild moment activeSpan name operation).1 := by
  unfold startChild
  dsimp only
  split
  · exact SameStack.refl state
  · exact ⟨rfl, rfl, rfl⟩

theorem startSpanWithName_sameStack (name operation : String) :
    SameStack state (state.startSpanWithName moment name operation).1 := by
  unfold startSpanWithName
  cases state.activeSpanStack with
  | nil => exact (state.startTransaction_sameStack moment operation).trans ⟨rfl, rfl, rfl⟩
  | cons activeSpan stack =>
    exact (state.startChild_sameStack moment activeSpan name operation).trans ⟨rfl, rfl, rfl⟩

theorem finishSpan_sameStack (spanId : SpanId) (status : SentrySpanStatus) :
    SameStack state (state.finishSpan moment spanId status) := by
  unfold finishSpan
  split
  · split
    · exact state.withTracer_sameStack _ _
    · exact (state.removeSpan_sameStack _).trans (withTracer_sameStack _ _ _)
    · exact state.removeSpan_sameStack _
  · exact SameStack.refl state

theorem tracerEvent_sameStack {state state' : State} {tracer : Nat} {event : SentryTracer.Event}
    (h : state.tracerEvent tracer event moment = some state') : SameStack state state' := by
  unfold tracerEvent at h
  split at h
  · cases h
  · obtain ⟨t, -, hstate⟩ := Option.map_eq_some_iff.mp h
    rw [← hstate]
    exact state.bindToScope_sameStack _ _
  · obtain ⟨t, -, hstep⟩ := Option.bind_eq_some_iff.mp h
    obtain ⟨t', -, hstate⟩ := Option.map_eq_some_iff.mp hstep
    rw [← hstate]
    exact state.withTracer_sameStack _ _

end SameStack

/-! The invariant. -/

def AtMostOne (stack : List SpanId) : Prop := stack = [] ∨ ∃ tracer, stack = [.tracer tracer]

/-- Each block that is running pops the stack back to what it was before. -/
def Nested : List Pending → List SpanId → Prop
  | [], stack => AtMostOne stack
  | .endMeasureSpan _ before :: rest, stack => stack.tail = before ∧ Nested rest before
  | .endActivateSpan pushed before :: rest, stack =>
    (if pushed then stack.tail else stack) = before ∧ Nested rest before
  | _ :: rest, stack => Nested rest stack

def isEnd : Pending → Bool
  | .endTransaction _ _ _ => true
  | _ => false

/-- A transaction ends after a block of the same callback. -/
def Framed (frame : List Pending) : Prop :=
  frame.any isEnd = true → frame.any Pending.isBlock = true

structure Inv (state : State) : Prop where
  restored : ∀ block ∈ state.ended, block.2 = block.1
  nested : Nested state.running.flatten state.activeSpanStack
  framed : ∀ frame ∈ state.running, Framed frame
  live : ∀ tracer, state.umbrella = [.tracer tracer] →
    state.isFinished (.tracer tracer) = false ∨
      ending state.running.flatten = some (.tracer tracer)

theorem nested_of_noBlock {pending : List Pending} (h : pending.any Pending.isBlock = false)
    (stack : List SpanId) : (Nested pending stack ↔ AtMostOne stack) ∧
      bottom pending stack = stack := by
  induction pending with
  | nil => exact ⟨Iff.rfl, rfl⟩
  | cons first rest ih =>
    rw [List.any_cons, Bool.or_eq_false_iff] at h
    cases first with
    | endMeasureSpan spanId before => cases h.1
    | endActivateSpan pushed before => cases h.1
    | startLayoutSpan controller => exact ih h.2
    | endLayoutSpan controller => exact ih h.2
    | endTransaction controller spanId status => exact ih h.2
    | removeDescription controller description => exact ih h.2

theorem ending_eq_none {pending : List Pending} (h : pending.any isEnd = false) :
    ending pending = none := by
  induction pending with
  | nil => rfl
  | cons first rest ih =>
    rw [List.any_cons, Bool.or_eq_false_iff] at h
    cases first with
    | endTransaction controller spanId status => cases h.1
    | endMeasureSpan spanId before => exact ih h.2
    | endActivateSpan pushed before => exact ih h.2
    | startLayoutSpan controller => exact ih h.2
    | endLayoutSpan controller => exact ih h.2
    | removeDescription controller description => exact ih h.2

/-- In a block the callbacks further in do not matter. -/
theorem ending_append {rest : List Pending} (h : rest.any Pending.isBlock = true)
    (frame : List Pending) : ending (frame ++ rest) = ending rest := by
  induction frame with
  | nil => rfl
  | cons first frame ih =>
    cases first with
    | endTransaction controller spanId status =>
      have hblock : (frame ++ rest).any Pending.isBlock = true := by simp [h]
      rw [List.cons_append, ending, hblock, if_pos rfl, ih]
    | endMeasureSpan spanId before => exact ih
    | endActivateSpan pushed before => exact ih
    | startLayoutSpan controller => exact ih
    | endLayoutSpan controller => exact ih
    | removeDescription controller description => exact ih

theorem Inv.ending_none {state : State} (h : Inv state) (hblock : state.inBlock = false) :
    ending state.running.flatten = none := by
  apply ending_eq_none
  rw [List.any_flatten, List.any_eq_false]
  intro frame hframe hend
  have hframed := h.framed frame hframe hend
  rw [inBlock, List.any_flatten, List.any_eq_false] at hblock
  exact hblock frame hframe hframed

theorem Inv.inBlock_of_ending {state : State} (h : Inv state) {spanId : SpanId}
    (hending : ending state.running.flatten = some spanId) : state.inBlock = true := by
  by_contra hblock
  rw [Bool.not_eq_true] at hblock
  rw [h.ending_none hblock] at hending
  cases hending

theorem Inv.correct {state : State} (h : Inv state) : Correct state := by
  have hstack : state.inBlock = false → AtMostOne state.activeSpanStack := fun hblock =>
    (nested_of_noBlock hblock _).1.mp h.nested
  have hlive : state.inBlock = false →
      ∀ spanId ∈ state.activeSpanStack, state.isFinished spanId = false := by
    intro hblock spanId hspan
    rcases hstack hblock with hempty | ⟨tracer, hone⟩
    · rw [hempty] at hspan
      cases hspan
    · rw [hone, List.mem_singleton] at hspan
      rw [hspan]
      have humbrella : state.umbrella = [.tracer tracer] := by
        rw [umbrella, (nested_of_noBlock hblock _).2, hone]
      rcases h.live tracer humbrella with hunfinished | hending
      · exact hunfinished
      · rw [h.ending_none hblock] at hending
        cases hending
  refine ⟨h.restored, hlive, fun hblock hfinished moment name operation => ?_⟩
  cases hone : state.activeSpanStack with
  | nil =>
    have hlength : (state.useSpan moment).1.tracers.length = state.tracers.length := by
      unfold useSpan withTracer tracerDidFinish removeSpan
      split
      · split
        · dsimp only
          split <;> simp
        · rfl
      · rfl
    unfold startSpanWithName startTransaction
    rw [hone]
    exact congrArg SpanId.tracer hlength
  | cons spanId stack =>
    have hmem : spanId ∈ state.activeSpanStack := by simp [hone]
    have hunfinished := hlive hblock spanId hmem
    rw [hfinished spanId hmem] at hunfinished
    cases hunfinished

/-! Steps that call nothing. -/

theorem Inv.sameStack {state state' : State} (h : Inv state) (hsame : SameStack state state')
    (hfinishes : ∀ tracer, state.umbrella = [.tracer tracer] →
      state.isFinished (.tracer tracer) = false → state'.isFinished (.tracer tracer) = true →
      ending state.running.flatten = some (.tracer tracer)) : Inv state' := by
  have humbrella : state'.umbrella = state.umbrella := by
    rw [umbrella, umbrella, hsame.running, hsame.stack]
  constructor
  · rw [hsame.ended]
    exact h.restored
  · rw [hsame.running, hsame.stack]
    exact h.nested
  · rw [hsame.running]
    exact h.framed
  · intro tracer hone
    rw [humbrella] at hone
    rw [hsame.running]
    cases hfinished : state'.isFinished (.tracer tracer) with
    | false => exact Or.inl rfl
    | true =>
      rcases h.live tracer hone with hunfinished | hending
      · exact Or.inr (hfinishes tracer hone hunfinished hfinished)
      · exact Or.inr hending

/-! Steps that call back. -/

/-- Blocks are opened before a callback. -/
structure Opens (state state' : State) (frame : List Pending) : Prop where
  running : state'.running = state.running
  ended : state'.ended = state.ended
  nested : ∀ rest, Nested rest state.activeSpanStack →
    Nested (frame ++ rest) state'.activeSpanStack
  bottom : ∀ rest, bottom (frame ++ rest) state'.activeSpanStack =
    bottom rest state.activeSpanStack

theorem Opens.trans {first second third : State} {frame frame' : List Pending}
    (h : Opens first second frame) (h' : Opens second third frame') :
    Opens first third (frame' ++ frame) := by
  constructor
  · exact h'.running.trans h.running
  · exact h'.ended.trans h.ended
  · intro rest hrest
    rw [List.append_assoc]
    exact h'.nested _ (h.nested rest hrest)
  · intro rest
    rw [List.append_assoc, h'.bottom, h.bottom]

theorem SameStack.opens {state state' : State} (h : SameStack state state') :
    Opens state state' [] := by
  constructor
  · exact h.running
  · exact h.ended
  · intro rest hrest
    rw [h.stack]
    exact hrest
  · intro rest
    rw [h.stack]
    rfl

theorem SameStack.transOpens {first second third : State} {frame : List Pending}
    (h : SameStack first second) (h' : Opens second third frame) : Opens first third frame := by
  have htrans := h.opens.trans h'
  rwa [List.append_nil] at htrans

theorem opens_idle (state : State) {pending : Pending} (h : pending.isBlock = false) :
    Opens state state [pending] := by
  cases pending with
  | endMeasureSpan spanId before => cases h
  | endActivateSpan pushed before => cases h
  | startLayoutSpan controller => exact ⟨rfl, rfl, fun _ hrest => hrest, fun _ => rfl⟩
  | endLayoutSpan controller => exact ⟨rfl, rfl, fun _ hrest => hrest, fun _ => rfl⟩
  | endTransaction controller spanId status =>
    exact ⟨rfl, rfl, fun _ hrest => hrest, fun _ => rfl⟩
  | removeDescription controller description =>
    exact ⟨rfl, rfl, fun _ hrest => hrest, fun _ => rfl⟩

theorem beginActivateSpan_opens (state : State) (spanId : SpanId) :
    Opens state (state.beginActivateSpan spanId).1 [(state.beginActivateSpan spanId).2] := by
  unfold beginActivateSpan pushActiveSpan
  cases state.isSpanAlive spanId with
  | true => exact ⟨rfl, rfl, fun _ hrest => ⟨rfl, hrest⟩, fun _ => rfl⟩
  | false => exact ⟨rfl, rfl, fun _ hrest => ⟨rfl, hrest⟩, fun _ => rfl⟩

theorem startSpanWithName_alive (state : State) (moment : Moment) (name operation : String) :
    (state.startSpanWithName moment name operation).1.isSpanAlive
      (state.startSpanWithName moment name operation).2 = true := by
  unfold isSpanAlive startSpanWithName
  rw [List.contains_iff_mem]
  exact List.mem_insert_self

theorem beginMeasureSpan_opens (state : State) (moment : Moment) (name operation : String) :
    Opens state (state.beginMeasureSpan moment name operation).1
      [(state.beginMeasureSpan moment name operation).2] := by
  have hsame := state.startSpanWithName_sameStack moment name operation
  have halive := state.startSpanWithName_alive moment name operation
  unfold beginMeasureSpan pushActiveSpan
  dsimp only
  rw [if_pos halive]
  exact ⟨hsame.running, hsame.ended, fun _ hrest => ⟨hsame.stack, hrest⟩, fun _ => rfl⟩

theorem beginMeasureSpanUnder_opens (state : State) (moment : Moment) (name operation : String)
    (parentSpanId : SpanId) :
    Opens state (state.beginMeasureSpanUnder moment name operation parentSpanId).1
      (state.beginMeasureSpanUnder moment name operation parentSpanId).2 :=
  (state.beginActivateSpan_opens parentSpanId).trans (beginMeasureSpan_opens _ _ _ _)

theorem Inv.call {state state' : State} {frame : List Pending} (h : Inv state)
    (hopens : Opens state state' frame) (hframed : Framed frame)
    (hfinishes : ∀ tracer, state.umbrella = [.tracer tracer] →
      state.isFinished (.tracer tracer) = false → state'.isFinished (.tracer tracer) = true →
      ending state.running.flatten = some (.tracer tracer)) : Inv (state'.call frame) := by
  have hrunning : (state'.call frame).running.flatten = frame ++ state.running.flatten := by
    rw [State.call, List.flatten_cons, hopens.running]
  have humbrella : (state'.call frame).umbrella = state.umbrella := by
    rw [umbrella, hrunning]
    exact hopens.bottom _
  constructor
  · change ∀ block ∈ state'.ended, _
    rw [hopens.ended]
    exact h.restored
  · rw [hrunning]
    exact hopens.nested _ h.nested
  · change ∀ f ∈ frame :: state'.running, _
    rw [hopens.running, List.forall_mem_cons]
    exact ⟨hframed, h.framed⟩
  · intro tracer hone
    rw [humbrella] at hone
    rw [hrunning]
    have hending : ending state.running.flatten = some (.tracer tracer) →
        ending (frame ++ state.running.flatten) = some (.tracer tracer) := by
      intro hending
      rw [ending_append (h.inBlock_of_ending hending), hending]
    cases hfinished : state'.isFinished (.tracer tracer) with
    | false => exact Or.inl hfinished
    | true =>
      rcases h.live tracer hone with hunfinished | hlast
      · exact Or.inr (hending (hfinishes tracer hone hunfinished hfinished))
      · exact Or.inr (hending hlast)

/-- The step opens blocks at most and calls back. -/
def Calls (state called : State) : Prop :=
  ∃ state' frame, called = state'.call frame ∧ Opens state state' frame ∧ Framed frame

theorem Inv.calls {state called : State} (h : Inv state) (hcalls : Calls state called)
    (hfinishes : ∀ tracer, state.umbrella = [.tracer tracer] →
      state.isFinished (.tracer tracer) = false → called.isFinished (.tracer tracer) = true →
      ending state.running.flatten = some (.tracer tracer)) : Inv called := by
  obtain ⟨state', frame, rfl, hopens, hframed⟩ := hcalls
  exact h.call hopens hframed hfinishes

theorem calls_nothing (state : State) : Calls state (state.call []) :=
  ⟨state, [], rfl, (SameStack.refl state).opens, fun h => h⟩

theorem limitOverride_eq {state : State} (block : State → State × List Pending)
    {description : String} {controller : Nat}
    (h : (state.controllers controller).spansInExecution.contains description = false) :
    state.limitOverride description controller block =
      (block (state.updateController controller fun c =>
        { c with spansInExecution := description :: c.spansInExecution })).1.call
        ((block (state.updateController controller fun c =>
          { c with spansInExecution := description :: c.spansInExecution })).2 ++
          [.removeDescription controller description]) := by
  unfold limitOverride
  rw [h, if_neg Bool.false_ne_true]

theorem Framed.removeDescription {frame : List Pending} (h : Framed frame) (controller : Nat)
    (description : String) : Framed (frame ++ [.removeDescription controller description]) := by
  intro hend
  have hblock := h (by simpa [isEnd] using hend)
  simp only [List.any_append, hblock, Bool.true_or]

theorem Opens.removeDescription {state state' : State} {frame : List Pending}
    (h : Opens state state' frame) (controller : Nat) (description : String) :
    Opens state state' (frame ++ [.removeDescription controller description]) := by
  have hidle : (Pending.removeDescription controller description).isBlock = false := rfl
  exact (opens_idle state hidle).trans h

theorem limitOverride_calls {state : State} {block : State → State × List Pending}
    (description : String) (controller : Nat)
    (h : ∀ state', SameStack state state' →
      Opens state' (block state').1 (block state').2 ∧ Framed (block state').2) :
    Calls state (state.limitOverride description controller block) := by
  cases hcontains : (state.controllers controller).spansInExecution.contains description with
  | true =>
    unfold limitOverride
    rw [hcontains, if_pos rfl]
    exact state.calls_nothing
  | false =>
    have hsame := state.updateController_sameStack controller fun c =>
      { c with spansInExecution := description :: c.spansInExecution }
    obtain ⟨hopens, hframed⟩ := h _ hsame
    rw [limitOverride_eq block hcontains]
    exact ⟨_, _, rfl, (hsame.transOpens hopens).removeDescription controller description,
      hframed.removeDescription controller description⟩

theorem viewWillAppear_calls (state : State) (moments : Nat → Moment) (controller : Nat) :
    Calls state (state.viewControllerViewWillAppear moments controller) := by
  apply limitOverride_calls
  intro state' _
  cases state'.trackedSpan controller with
  | none => exact ⟨(SameStack.refl state').opens, fun h => h⟩
  | some spanId =>
    exact ⟨state'.beginMeasureSpanUnder_opens _ _ _ spanId, fun _ => rfl⟩

theorem finishTransaction_calls (state : State) (moments : Nat → Moment)
    (status : SentrySpanStatus) (lifecycleMethod : String) (controller : Nat) :
    Calls state (state.finishTransaction moments status lifecycleMethod controller) := by
  apply limitOverride_calls
  intro state' _
  cases state'.trackedSpan controller with
  | none => exact ⟨(SameStack.refl state').opens, fun h => h⟩
  | some spanId =>
    have hidle := opens_idle state'
      (show (Pending.endTransaction controller spanId status).isBlock = false from rfl)
    exact ⟨hidle.trans (state'.beginMeasureSpanUnder_opens _ _ _ spanId), fun _ => rfl⟩

theorem willLayoutSubViews_calls (state : State) (moments : Nat → Moment) (controller : Nat) :
    Calls state (state.viewControllerViewWillLayoutSubViews moments controller) := by
  apply limitOverride_calls
  intro state' _
  cases state'.trackedSpan controller with
  | none => exact ⟨(SameStack.refl state').opens, fun h => h⟩
  | some spanId =>
    have hactivate := state'.beginActivateSpan_opens spanId
    have hidle := opens_idle (state'.beginActivateSpan spanId).1
      (show (Pending.startLayoutSpan controller).isBlock = false from rfl)
    exact ⟨(hactivate.trans hidle).trans (beginMeasureSpan_opens _ _ _ _), fun _ => rfl⟩

theorem didLayoutSubViews_calls (state : State) (moments : Nat → Moment) (controller : Nat) :
    Calls state (state.viewControllerViewDidLayoutSubViews moments controller) := by
  apply limitOverride_calls
  intro state' _
  cases state'.trackedSpan controller with
  | none => exact ⟨(SameStack.refl state').opens, fun h => h⟩
  | some spanId =>
    have hactivate := state'.beginActivateSpan_opens spanId
    have hidle := opens_idle (state'.beginActivateSpan spanId).1
      (show (Pending.endLayoutSpan controller).isBlock = false from rfl)
    have hbefore := hactivate.trans hidle
    dsimp only
    cases ((state'.beginActivateSpan spanId).1.controllers controller).layoutSubviewSpanId with
    | none => exact ⟨hbefore.trans (beginMeasureSpan_opens _ _ _ _), fun _ => rfl⟩
    | some layoutSubViewId =>
      have hfinish := finishSpan_sameStack (state'.beginActivateSpan spanId).1 (moments 0)
        layoutSubViewId .ok
      exact ⟨hbefore.trans (hfinish.transOpens (beginMeasureSpan_opens _ _ _ _)), fun _ => rfl⟩

/-! Steps that may push an umbrella. -/

theorem startChildWithParentId_isFinished (moment : Moment) (parentId : SentrySpanId)
    (operation : String) (description : Option String) (tracer : SentryTracer) :
    (tracer.startChildWithParentId moment parentId operation description).1.isFinished =
      tracer.isFinished := by
  unfold SentryTracer.startChildWithParentId
  split
  · rfl
  · rfl

theorem startChild_isFinished (state : State) (moment : Moment) (activeSpan spanId : SpanId)
    (name operation : String) :
    (state.startChild moment activeSpan name operation).1.isFinished spanId =
      state.isFinished spanId := by
  have hset : ∀ (tracer : Nat) (t t' : SentryTracer), state.tracers[tracer]? = some t →
      t'.isFinished = t.isFinished →
      State.isFinished { state with tracers := state.tracers.set tracer t' } spanId =
        state.isFinished spanId := by
    intro tracer t t' hget hsame
    have hany : ∀ i : Nat, (state.tracers.set tracer t')[i]?.any SentryTracer.isFinished =
        state.tracers[i]?.any SentryTracer.isFinished := by
      intro i
      rw [List.getElem?_set]
      split
      · next heq =>
        subst heq
        obtain ⟨hlt, ht⟩ := List.getElem?_eq_some_iff.mp hget
        simp [hlt, hsame, ht]
      · rfl
    cases spanId with
    | empty => rfl
    | tracer i => exact hany i
    | child i position => exact hany i
  unfold startChild
  cases activeSpan with
  | empty => rfl
  | tracer tracer =>
    dsimp only
    cases hget : state.tracers[tracer]? with
    | none => rfl
    | some t =>
      exact hset tracer t _ hget (startChildWithParentId_isFinished moment _ _ _ t)
  | child tracer position =>
    dsimp only
    cases hget : state.tracers[tracer]? with
    | none => rfl
    | some t =>
      rw [Option.bind_some]
      unfold SentryTracer.startNestedChild
      cases t.children[position]? with
      | none => rfl
      | some span =>
        exact hset tracer t _ hget (startChildWithParentId_isFinished moment _ _ _ t)

theorem beginMeasureSpan_isFinished {state : State} (h : state.activeSpanStack ≠ [])
    (moment : Moment) (name operation : String) (spanId : SpanId) :
    (state.beginMeasureSpan moment name operation).1.isFinished spanId =
      state.isFinished spanId := by
  have halive := state.startSpanWithName_alive moment name operation
  have hstarted : (state.startSpanWithName moment name operation).1.isFinished spanId =
      state.isFinished spanId := by
    unfold startSpanWithName
    cases hstack : state.activeSpanStack with
    | nil => exact absurd hstack h
    | cons activeSpan stack =>
      rw [← state.startChild_isFinished moment activeSpan spanId name operation]
      cases spanId <;> rfl
  rw [← hstarted]
  unfold beginMeasureSpan pushActiveSpan
  dsimp only
  rw [if_pos halive]
  cases spanId <;> rfl

theorem beginActivateSpan_isFinished (state : State) (activeSpan spanId : SpanId) :
    (state.beginActivateSpan activeSpan).1.isFinished spanId = state.isFinished spanId := by
  unfold beginActivateSpan pushActiveSpan
  cases state.isSpanAlive activeSpan with
  | true => cases spanId <;> rfl
  | false => rfl

theorem beginActivateSpan_ne_nil {state : State} (h : state.activeSpanStack ≠ [])
    (activeSpan : SpanId) : (state.beginActivateSpan activeSpan).1.activeSpanStack ≠ [] := by
  unfold beginActivateSpan pushActiveSpan
  cases state.isSpanAlive activeSpan with
  | true => exact List.cons_ne_nil _ _
  | false => exact h

theorem measurePerformance_opens (state : State) (moment : Moment) (description : String)
    (controller : Nat) :
    Opens state (state.measurePerformance moment description controller).1
        (state.measurePerformance moment description controller).2 ∧
      Framed (state.measurePerformance moment description controller).2 := by
  unfold measurePerformance
  cases (state.controllers controller).spanId with
  | none => exact ⟨(SameStack.refl state).opens, fun h => h⟩
  | some spanId => exact ⟨state.beginMeasureSpanUnder_opens _ _ _ spanId, fun _ => rfl⟩

theorem measurePerformance_isFinished {state : State} (h : state.activeSpanStack ≠ [])
    (moment : Moment) (description : String) (controller : Nat) (spanId : SpanId) :
    (state.measurePerformance moment description controller).1.isFinished spanId =
      state.isFinished spanId := by
  unfold measurePerformance
  cases (state.controllers controller).spanId with
  | none => rfl
  | some parent =>
    exact (beginMeasureSpan_isFinished (beginActivateSpan_ne_nil h parent) _ _ _ _).trans
      (state.beginActivateSpan_isFinished parent spanId)

/-- A new transaction is below everything else. -/
structure PushesUmbrella (state state' : State) (tracer : Nat) : Prop where
  stack : state'.activeSpanStack = [.tracer tracer]
  running : state'.running = state.running
  ended : state'.ended = state.ended
  unfinished : state'.isFinished (.tracer tracer) = false

theorem startTransaction_unfinished (state : State) (moment : Moment) (operation : String) :
    ∃ tracer, (state.startTransaction moment operation).2 = .tracer tracer ∧
      (state.startTransaction moment operation).1.isFinished (.tracer tracer) = false := by
  have hnew : ∀ isProfiling, (SentryTracer.initWithTransactionContext moment (moment.spanIds 0)
      operation true configuration isProfiling false).isFinished = false := by
    intro isProfiling
    simp [SentryTracer.initWithTransactionContext, SentryTracer.hasIdleTimeout, configuration,
      SentryTracer.isFinished, SentrySpan.initWithContext]
  refine ⟨(state.useSpan moment).1.tracers.length, rfl, ?_⟩
  unfold startTransaction
  generalize state.useSpan moment = used
  have hlast : ∀ (tracers : List SentryTracer) (t : SentryTracer), t.isFinished = false →
      (tracers ++ [t])[tracers.length]?.any SentryTracer.isFinished = false := by
    intro tracers t ht
    simp [ht]
  dsimp only
  split
  · change (List.mapIdx _ (used.1.tracers ++ [_]))[used.1.tracers.length]?.any
      SentryTracer.isFinished = false
    simp
    exact hnew used.1.isProfiling
  · exact hlast _ _ (hnew used.1.isProfiling)

theorem createTransaction_cases (state : State) (moment : Moment) (controller : Nat) :
    SameStack state (state.createTransaction moment controller) ∨
      (state.controllers controller).spanId = none ∧ state.activeSpanStack = [] ∧
        ∃ tracer, PushesUmbrella state (state.createTransaction moment controller) tracer := by
  have hsame := fun name => state.startSpanWithName_sameStack moment name "ui.load"
  unfold createTransaction
  cases hspan : (state.controllers controller).spanId with
  | some spanId => exact Or.inl (SameStack.refl state)
  | none =>
    dsimp only
    split
    · next hempty =>
      have hstack : state.activeSpanStack = [] := by
        rw [← (hsame _).stack]
        exact hempty
      refine Or.inr ⟨rfl, hstack, ?_⟩
      obtain ⟨tracer, hid, hunfinished⟩ := state.startTransaction_unfinished moment "ui.load"
      have hstarted : ∀ name, (state.startSpanWithName moment name "ui.load").2 = .tracer tracer ∧
          (state.startSpanWithName moment name "ui.load").1.isFinished (.tracer tracer) =
            false := by
        intro name
        unfold startSpanWithName
        rw [hstack]
        exact ⟨hid, hunfinished⟩
      have hstarted' := hstarted (state.controllers controller).className
      have halive := state.startSpanWithName_alive moment
        (state.controllers controller).className "ui.load"
      have hsame' := hsame (state.controllers controller).className
      generalize state.startSpanWithName moment (state.controllers controller).className "ui.load" =
        started at hstarted' halive hsame' ⊢
      have hpush : (State.updateController controller (fun c => { c with spanId := some started.2 })
          started.1).isSpanAlive started.2 = true := halive
      refine ⟨tracer, ?_⟩
      unfold pushActiveSpan
      rw [if_pos hpush]
      constructor
      · change started.2 :: started.1.activeSpanStack = _
        rw [hstarted'.1, hsame'.stack, hstack]
      · exact hsame'.running
      · exact hsame'.ended
      · exact hstarted'.2
    · exact Or.inl ((hsame _).trans (updateController_sameStack _ _ _))

theorem Inv.callUmbrella {state pushed state' : State} {frame : List Pending} {tracer : Nat}
    (h : Inv state) (hblock : state.inBlock = false) (hpushes : PushesUmbrella state pushed tracer)
    (hopens : Opens pushed state' frame) (hframed : Framed frame)
    (hunfinished : state'.isFinished (.tracer tracer) = false) : Inv (state'.call frame) := by
  have hrunning : (state'.call frame).running.flatten = frame ++ state.running.flatten := by
    rw [State.call, List.flatten_cons, hopens.running, hpushes.running]
  have houter : Nested state.running.flatten pushed.activeSpanStack := by
    rw [(nested_of_noBlock hblock _).1, hpushes.stack]
    exact Or.inr ⟨tracer, rfl⟩
  constructor
  · change ∀ block ∈ state'.ended, _
    rw [hopens.ended, hpushes.ended]
    exact h.restored
  · rw [hrunning]
    exact hopens.nested _ houter
  · change ∀ f ∈ frame :: state'.running, _
    rw [hopens.running, hpushes.running, List.forall_mem_cons]
    exact ⟨hframed, h.framed⟩
  · intro other hone
    rw [umbrella, hrunning] at hone
    have hbottom : bottom (frame ++ state.running.flatten) state'.activeSpanStack =
        [.tracer tracer] := by
      rw [hopens.bottom, (nested_of_noBlock hblock _).2, hpushes.stack]
    change bottom (frame ++ state.running.flatten) state'.activeSpanStack = _ at hone
    rw [hbottom, List.cons.injEq, SpanId.tracer.injEq] at hone
    rw [← hone.1]
    exact Or.inl hunfinished

theorem Inv.load {state : State} (h : Inv state) (moments : Nat → Moment) (description : String)
    (controller : Nat)
    (hcreates : (!(state.controllers controller).spansInExecution.contains description &&
      (state.controllers controller).spanId.isNone) = true → state.activeSpanStack = [] →
      state.inBlock = false)
    (hfinishes : ∀ tracer, state.umbrella = [.tracer tracer] →
      state.isFinished (.tracer tracer) = false →
      (state.viewControllerLoad moments description controller).isFinished (.tracer tracer) = true →
      ending state.running.flatten = some (.tracer tracer)) :
    Inv (state.viewControllerLoad moments description controller) := by
  cases hcontains : (state.controllers controller).spansInExecution.contains description with
  | true =>
    apply h.calls _ hfinishes
    unfold viewControllerLoad limitOverride
    rw [hcontains, if_pos rfl]
    exact state.calls_nothing
  | false =>
    have hsame := state.updateController_sameStack controller fun c =>
      { c with spansInExecution := description :: c.spansInExecution }
    have hspan : ((state.updateController controller fun c =>
        { c with spansInExecution := description :: c.spansInExecution }).controllers
          controller).spanId = (state.controllers controller).spanId := by
      simp [updateController]
    have hcreated := createTransaction_cases (state.updateController controller fun c =>
      { c with spansInExecution := description :: c.spansInExecution }) (moments 0) controller
    unfold viewControllerLoad at hfinishes ⊢
    rw [limitOverride_eq _ hcontains] at hfinishes ⊢
    generalize (state.updateController controller fun c =>
      { c with spansInExecution := description :: c.spansInExecution }) = updated at *
    have hmeasure := (updated.createTransaction (moments 0) controller).measurePerformance_opens
      (moments 1) description controller
    rcases hcreated with hcreated | ⟨hnone, hempty, tracer, hpushes⟩
    · have hopens := (hsame.trans hcreated).transOpens hmeasure.1
      exact h.calls ⟨_, _, rfl, hopens.removeDescription controller description,
        hmeasure.2.removeDescription controller description⟩ hfinishes
    · have hblock : state.inBlock = false := by
        apply hcreates
        · rw [hcontains, ← hspan, hnone]
          rfl
        · rw [← hsame.stack]
          exact hempty
      have hpushed : PushesUmbrella state (updated.createTransaction (moments 0) controller)
          tracer :=
        ⟨hpushes.stack, hpushes.running.trans hsame.running, hpushes.ended.trans hsame.ended,
          hpushes.unfinished⟩
      apply h.callUmbrella hblock hpushed
      · exact hmeasure.1.removeDescription controller description
      · exact hmeasure.2.removeDescription controller description
      · rw [measurePerformance_isFinished (by rw [hpushes.stack]; exact List.cons_ne_nil _ _)]
        exact hpushes.unfinished

/-! Callbacks that return. -/

/-- What was left to do becomes what is still left. -/
structure Returns (state state' : State) (pending rest : List Pending) : Prop where
  running : state'.running = state.running
  restored : (∀ block ∈ state.ended, block.2 = block.1) → ∀ block ∈ state'.ended, block.2 = block.1
  nested : Nested rest state'.activeSpanStack
  bottom : bottom rest state'.activeSpanStack = [] ∨
    bottom rest state'.activeSpanStack = bottom pending state.activeSpanStack ∧
      ∀ tracer, ending pending = some (.tracer tracer) → ending rest = some (.tracer tracer)

theorem Returns.trans {first second third : State} {pending pending' rest : List Pending}
    (h : Returns first second pending pending') (h' : Returns second third pending' rest) :
    Returns first third pending rest := by
  refine ⟨h'.running.trans h.running, fun hblocks => h'.restored (h.restored hblocks), h'.nested, ?_⟩
  rcases h'.bottom with hempty | ⟨hbottom, hending⟩
  · exact Or.inl hempty
  · rcases h.bottom with hempty | ⟨hbottom', hending'⟩
    · exact Or.inl (hbottom.trans hempty)
    · exact Or.inr ⟨hbottom.trans hbottom', fun tracer htracer =>
        hending tracer (hending' tracer htracer)⟩

theorem SameStack.returns {state state' : State} {pending rest : List Pending}
    (h : SameStack state state') (hnested : Nested rest state.activeSpanStack)
    (hbottom : bottom rest state.activeSpanStack = bottom pending state.activeSpanStack)
    (hending : ∀ tracer, ending pending = some (.tracer tracer) →
      ending rest = some (.tracer tracer)) : Returns state state' pending rest := by
  refine ⟨h.running, fun hblocks => ?_, ?_, Or.inr ⟨?_, hending⟩⟩
  · rw [h.ended]
    exact hblocks
  · rw [h.stack]
    exact hnested
  · rw [h.stack, hbottom]

/-- A block pops what it pushed. -/
theorem endBlock_returns {state state' : State} {before : List SpanId}
    {pending rest : List Pending} (hrunning : state'.running = state.running)
    (hended : state'.ended = state.ended) (hstack : state'.activeSpanStack = before)
    (hnested : Nested rest before)
    (hbottom : bottom rest before = bottom pending state.activeSpanStack)
    (hending : ending pending = ending rest) :
    Returns state (state'.endBlock before) pending rest := by
  refine ⟨hrunning, fun hblocks => ?_, ?_, Or.inr ⟨?_, fun tracer htracer => ?_⟩⟩
  · change ∀ block ∈ (before, state'.activeSpanStack) :: state'.ended, _
    rw [hended, List.forall_mem_cons]
    exact ⟨hstack, hblocks⟩
  · change Nested rest state'.activeSpanStack
    rw [hstack]
    exact hnested
  · change bottom rest state'.activeSpanStack = _
    rw [hstack]
    exact hbottom
  · rw [← hending]
    exact htracer

theorem endTransaction_returns {state : State} (moment : Moment) (controller : Nat)
    (spanId : SpanId) (status : SentrySpanStatus) {rest : List Pending}
    (hnested : Nested rest state.activeSpanStack)
    (hchild : (!rest.any Pending.isBlock || state.isSpanAlive spanId && spanId.hasParent) = true) :
    Returns state (state.runPending moment (.endTransaction controller spanId status))
      (.endTransaction controller spanId status :: rest) rest := by
  have hsame : ∀ state', SameStack state' (State.updateController controller
      (fun c => { c with spanId := none }) (state'.finishSpan moment spanId status)) := fun state' =>
    (state'.finishSpan_sameStack moment spanId status).trans (updateController_sameStack _ _ _)
  unfold runPending
  dsimp only
  split
  · next hstays =>
    refine (hsame state).returns hnested rfl fun tracer htracer => ?_
    rw [ending] at htracer
    split at htracer
    · exact htracer
    · rw [Option.some.inj htracer, Bool.and_eq_true_iff] at hstays
      cases hstays.2
  · next hpops =>
    rw [Bool.not_eq_true] at hpops
    rw [hpops, Bool.or_false, Bool.not_eq_true'] at hchild
    obtain ⟨hone, -⟩ := nested_of_noBlock hchild state.activeSpanStack
    have hempty : state.activeSpanStack.tail = [] := by
      rcases hone.mp hnested with hempty | ⟨tracer, hone⟩
      · rw [hempty]
        rfl
      · rw [hone]
        rfl
    have hstack : (State.updateController controller (fun c => { c with spanId := none })
        (state.popActiveSpan.finishSpan moment spanId status)).activeSpanStack = [] :=
      (hsame state.popActiveSpan).stack.trans hempty
    refine ⟨(hsame state.popActiveSpan).running, fun hblocks => ?_, ?_, Or.inl ?_⟩
    · rw [(hsame state.popActiveSpan).ended]
      exact hblocks
    · rw [hstack, (nested_of_noBlock hchild []).1]
      exact Or.inl rfl
    · rw [hstack, (nested_of_noBlock hchild []).2]

theorem runPending_returns {state : State} (moment : Moment) {pending : Pending}
    {rest : List Pending} (hnested : Nested (pending :: rest) state.activeSpanStack)
    (hchild : ∀ controller spanId status, pending = .endTransaction controller spanId status →
      (!rest.any Pending.isBlock || state.isSpanAlive spanId && spanId.hasParent) = true) :
    Returns state (state.runPending moment pending) (pending :: rest) rest := by
  cases pending with
  | endMeasureSpan spanId before =>
    have hsame := finishSpan_sameStack state.popActiveSpan moment spanId .ok
    exact endBlock_returns hsame.running hsame.ended (hsame.stack.trans hnested.1) hnested.2 rfl rfl
  | endActivateSpan pushed before =>
    have hstack : (if pushed then state.popActiveSpan else state).activeSpanStack = before := by
      rw [← hnested.1]
      cases pushed <;> rfl
    refine endBlock_returns ?_ ?_ hstack hnested.2 rfl rfl
    · cases pushed <;> rfl
    · cases pushed <;> rfl
  | startLayoutSpan controller =>
    have hsame := state.startSpanWithName_sameStack moment "layoutSubViews" "ui.load"
    refine SameStack.returns ?_ hnested rfl fun _ h => h
    exact hsame.trans ⟨rfl, rfl, rfl⟩
  | endLayoutSpan controller =>
    refine SameStack.returns ?_ hnested rfl fun _ h => h
    exact ⟨rfl, rfl, rfl⟩
  | removeDescription controller description =>
    refine SameStack.returns ?_ hnested rfl fun _ h => h
    exact ⟨rfl, rfl, rfl⟩
  | endTransaction controller spanId status =>
    exact endTransaction_returns moment controller spanId status hnested
      (hchild controller spanId status rfl)

theorem endsChild_cons {moments : Nat → Moment} {outer rest : List Pending} {pending : Pending}
    {state : State} (h : endsChild moments outer (pending :: rest) state = true) :
    (∀ controller spanId status, pending = .endTransaction controller spanId status →
      (!(rest ++ outer).any Pending.isBlock || state.isSpanAlive spanId && spanId.hasParent) =
        true) ∧
    endsChild moments outer rest (state.runPending (moments rest.length) pending) = true := by
  cases pending with
  | endTransaction controller spanId status =>
    rw [endsChild, Bool.and_eq_true_iff] at h
    refine ⟨fun _ _ _ heq => ?_, h.2⟩
    cases heq
    exact h.1
  | endMeasureSpan spanId before => exact ⟨fun _ _ _ heq => (nomatch heq), h⟩
  | endActivateSpan pushed before => exact ⟨fun _ _ _ heq => (nomatch heq), h⟩
  | startLayoutSpan controller => exact ⟨fun _ _ _ heq => (nomatch heq), h⟩
  | endLayoutSpan controller => exact ⟨fun _ _ _ heq => (nomatch heq), h⟩
  | removeDescription controller description => exact ⟨fun _ _ _ heq => (nomatch heq), h⟩

theorem runAll_returns (moments : Nat → Moment) {outer : List Pending} (pending : List Pending)
    {state : State} (hnested : Nested (pending ++ outer) state.activeSpanStack)
    (hchild : endsChild moments outer pending state = true) :
    Returns state (state.runAll moments pending) (pending ++ outer) outer := by
  induction pending generalizing state with
  | nil => exact (SameStack.refl state).returns hnested rfl fun _ h => h
  | cons first rest ih =>
    obtain ⟨hfirst, hrest⟩ := endsChild_cons hchild
    have hreturns := runPending_returns (moments rest.length) hnested hfirst
    exact hreturns.trans (ih hreturns.nested hrest)

theorem Inv.callbackReturns {state : State} (h : Inv state) (moments : Nat → Moment)
    {pending : List Pending} {running : List (List Pending)}
    (hrunning : state.running = pending :: running)
    (hchild : endsChild moments running.flatten pending { state with running := running } = true)
    (hfinishes : ∀ tracer, state.umbrella = [.tracer tracer] →
      state.isFinished (.tracer tracer) = false →
      (State.runAll moments pending { state with running := running }).isFinished
        (.tracer tracer) = true → ending state.running.flatten = some (.tracer tracer)) :
    Inv (State.runAll moments pending { state with running := running }) := by
  have hnested := h.nested
  have hlive := h.live
  have hframed := h.framed
  unfold umbrella at hlive hfinishes
  rw [hrunning, List.flatten_cons] at hnested hlive hfinishes
  rw [hrunning, List.forall_mem_cons] at hframed
  have hreturns := runAll_returns moments pending
    (show Nested (pending ++ running.flatten)
      ({ state with running := running } : State).activeSpanStack from hnested) hchild
  constructor
  · exact hreturns.restored h.restored
  · rw [hreturns.running]
    exact hreturns.nested
  · rw [hreturns.running]
    exact hframed.2
  · intro tracer hone
    unfold umbrella at hone
    rw [hreturns.running] at hone ⊢
    rcases hreturns.bottom with hempty | ⟨hbottom, hending⟩
    · rw [hempty] at hone
      cases hone
    · rw [hbottom] at hone
      cases hfinished : (State.runAll moments pending { state with running := running }).isFinished
          (.tracer tracer) with
      | false => exact Or.inl rfl
      | true =>
        rcases hlive tracer hone with hunfinished | hlast
        · exact Or.inr (hending tracer (hfinishes tracer hone hunfinished hfinished))
        · exact Or.inr (hending tracer hlast)

theorem Inv.step {state state' : State} {input : Event × (Nat → Moment)} (h : Inv state)
    (horderly : Orderly state input) (hstep : state.step input = some state') : Inv state' := by
  have hfinishes := fun tracer => horderly.finishes tracer state' hstep
  have hcreates := horderly.creates
  have hreturns := horderly.returns
  obtain ⟨event, moments⟩ := input
  cases event with
  | loadView controller =>
    cases hstep
    unfold viewControllerLoadView at hfinishes ⊢
    split at hfinishes
    · next houtside =>
      rw [if_pos houtside]
      exact h.calls state.calls_nothing hfinishes
    · next hinside =>
      rw [if_neg hinside]
      split at hfinishes
      · next hexcluded =>
        rw [if_pos hexcluded]
        exact h.calls state.calls_nothing hfinishes
      · next hincluded =>
        rw [if_neg hincluded]
        apply h.load moments "loadView" controller _ hfinishes
        intro hnew
        apply hcreates
        rw [Bool.not_eq_true, Bool.not_eq_false'] at hinside
        rw [Bool.not_eq_true] at hincluded
        rw [Bool.and_eq_true_iff] at hnew
        simp only [creates, hinside, hincluded, hnew, Bool.not_false, Bool.and_self]
  | viewDidLoad controller =>
    cases hstep
    exact h.load moments "viewDidLoad" controller hcreates hfinishes
  | viewWillAppear controller =>
    cases hstep
    exact h.calls (state.viewWillAppear_calls moments controller) hfinishes
  | viewWillLayoutSubViews controller =>
    cases hstep
    exact h.calls (state.willLayoutSubViews_calls moments controller) hfinishes
  | viewDidLayoutSubViews controller =>
    cases hstep
    exact h.calls (state.didLayoutSubViews_calls moments controller) hfinishes
  | viewDidAppear controller =>
    cases hstep
    exact h.calls (state.finishTransaction_calls moments _ _ controller) hfinishes
  | viewWillDisappear controller =>
    cases hstep
    exact h.calls (state.finishTransaction_calls moments _ _ controller) hfinishes
  | measureSpan name operation =>
    cases hstep
    exact h.call (state.beginMeasureSpan_opens _ name operation) (fun _ => rfl) hfinishes
  | measureSpanUnder name operation parentSpanId =>
    cases hstep
    exact h.call (state.beginMeasureSpanUnder_opens _ name operation parentSpanId) (fun _ => rfl)
      hfinishes
  | activateSpan spanId =>
    cases hstep
    exact h.call (state.beginActivateSpan_opens spanId) (fun _ => rfl) hfinishes
  | startSpan name operation =>
    cases hstep
    exact h.sameStack (state.startSpanWithName_sameStack _ name operation) hfinishes
  | finishSpan spanId status =>
    cases hstep
    exact h.sameStack (state.finishSpan_sameStack _ spanId status) hfinishes
  | tracer tracer event =>
    exact h.sameStack (tracerEvent_sameStack _ hstep) hfinishes
  | setScopeSpan operation =>
    cases hstep
    exact h.sameStack (state.bindToScope_sameStack _ operation) hfinishes
  | callbackReturns =>
    cases hrunning : state.running with
    | nil =>
      unfold State.step at hstep
      rw [hrunning] at hstep
      cases hstep
    | cons pending running =>
      unfold State.step at hstep
      rw [hrunning] at hstep
      cases hstep
      exact h.callbackReturns moments hrunning (hreturns rfl pending running hrunning) hfinishes

theorem launch_inv (isProfiling : Bool) (otherScopeSpan : Option String)
    (controllers : Nat → UIViewController) :
    Inv (launch isProfiling otherScopeSpan controllers) :=
  ⟨fun _ h => (nomatch h), Or.inl rfl, fun _ h => (nomatch h), fun _ h => (nomatch h)⟩

/-- In every orderly run blocks restore the stack, and no finished transaction stays in it. -/
theorem always_correct_of_orderly (isProfiling : Bool) (otherScopeSpan : Option String)
    (controllers : Nat → UIViewController) (inputs : List (Event × (Nat → Moment)))
    (orderly : Allowed step Orderly (launch isProfiling otherScopeSpan controllers) inputs) :
    Always step Correct (launch isProfiling otherScopeSpan controllers) inputs :=
  always_of_allowed (fun _ => Inv.correct) (fun _ _ _ h horderly => h.step horderly)
    (launch_inv isProfiling otherScopeSpan controllers) orderly

def atZero (_ : Nat) : Moment where
  date := ⟨0⟩
  dates := fun _ => ⟨0⟩
  spanIds := fun _ => ⟨0⟩
  createDispatchBlock := true
  shouldIgnoreWaitForChildrenCallback := fun _ => false
  appStartMeasurement := none

def screens (_ : Nat) : UIViewController := ⟨"Screen", true, false, none, none, []⟩

/-- A controller loads its view and appears. -/
def appears : List (Event × (Nat → Moment)) :=
  [(.loadView 0, atZero), (.callbackReturns, atZero), (.viewDidAppear 0, atZero),
    (.callbackReturns, atZero)]

/-- A controller loads its view, and does not appear before the deadline. -/
def misses : List (Event × (Nat → Moment)) :=
  [(.loadView 0, atZero), (.callbackReturns, atZero), (.tracer 0 .deadlineTimer, atZero)]

theorem always_correct_of_orderly_example :
    Always step Correct (launch false none screens) appears := by
  apply always_correct_of_orderly
  intro loading h
  cases h
  refine ⟨⟨fun _ _ _ hone => (nomatch hone), fun _ _ => rfl, fun h => (nomatch h)⟩, ?_⟩
  intro loaded h
  cases h
  refine ⟨⟨fun tracer _ h hone _ hfinished => ?_, fun h => (nomatch h), fun _ _ _ h => ?_⟩, ?_⟩
  · cases h
    cases hone
    exact absurd hfinished (by decide +kernel)
  · cases h
    decide +kernel
  intro appearing h
  cases h
  refine ⟨⟨fun tracer _ h hone _ hfinished => ?_, fun h => (nomatch h), fun h => (nomatch h)⟩, ?_⟩
  · cases h
    cases hone
    exact absurd hfinished (by decide +kernel)
  intro appeared h
  cases h
  refine ⟨⟨fun tracer _ h hone _ _ => ?_, fun h => (nomatch h), fun _ _ _ h => ?_⟩, trivial⟩
  · cases h
    cases hone
    rfl
  · cases h
    decide +kernel

theorem deadline_leaves_umbrella :
    ¬ Always step Correct (launch false none screens) misses := by
  intro h
  have hrun : (exec step (launch false none screens) misses).map (fun state =>
      (state.inBlock, state.activeSpanStack, state.isFinished (.tracer 0))) =
      some (false, [.tracer 0], true) := by decide +kernel
  obtain ⟨state, hstate, hvalues⟩ := Option.map_eq_some_iff.mp hrun
  simp only [Prod.mk.injEq] at hvalues
  have hlive := (Always.exec h hstate).live hvalues.1 (.tracer 0) (by simp [hvalues.2.1])
  rw [hvalues.2.2] at hlive
  cases hlive

end SentryCocoa.PerformanceTracker.State
