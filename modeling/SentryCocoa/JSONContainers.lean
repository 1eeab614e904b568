import SentryCocoa.JSONElement
import SentryCocoa.Library.Machine

/-! How the containers of the encoder follow its calls. The stack of the containers is a machine
of its own, which a call gives one mark for each element and each container that it writes. The
encoder stops where that machine stops, unless its handler fails before. -/
namespace SentryCocoa.JSONCodec
open SentryCocoa.Library.Simulation SentryCocoa.Library.Machine

variable {ω δ : Type}

/-- An element in the current container, a container that is begun in it, the end of the
current one where more than so many are open, or something that cannot be written at all. -/
inductive Mark where
  | element (name : Option Bytes) (value : Bytes)
  | beginContainer (isObject : Bool) (name : Option Bytes)
  | endContainer (above : Nat)
  | invalid
  deriving DecidableEq

def escapable (string : Bytes) : Bool := string.all fun c => (escapeByte c).isSome

/-- An object needs a name that can be written. -/
def nameFits (containers : List Bool) (name : Option Bytes) : Bool :=
  !containers.headD false || name.any escapable

def markStep (containers : List Bool) : Mark → Option (List Bool)
  | .element name value =>
    if nameFits containers name && escapable value then some containers else none
  | .beginContainer isObject name =>
    if nameFits containers name then some (isObject :: containers) else none
  | .endContainer above =>
    some (if containers.length > above then containers.tail else containers)
  | .invalid => none

/-- The greatest number of containers that are begun by the marks. -/
def deepest (level : Nat) : List Bool → List Mark → Nat
  | _, [] => level
  | containers, .beginContainer isObject name :: rest =>
    if nameFits containers name then
      deepest (max level (containers.length + 1)) (isObject :: containers) rest
    else level
  | containers, mark :: rest =>
    match markStep containers mark with
    | none => level
    | some containers => deepest level containers rest

/-! What is written. -/

/-- A handler that never fails. -/
def Reliable (handler : Bytes → ω → Bool × ω) : Prop :=
  ∀ data userData, (handler data userData).1 = true

/-- The containers stay as they are. -/
structure Quiet (context context' : EncodeContext ω) : Prop where
  handler : context'.handler = context.handler
  isObject : context'.isObject = context.isObject
  prettyPrint : context'.prettyPrint = context.prettyPrint
  deepestLevel : context'.deepestLevel = context.deepestLevel

theorem Quiet.refl (context : EncodeContext ω) : Quiet context context := ⟨rfl, rfl, rfl, rfl⟩

theorem Quiet.trans {first second third : EncodeContext ω} (h : Quiet first second)
    (h' : Quiet second third) : Quiet first third where
  handler := h'.handler.trans h.handler
  isObject := h'.isObject.trans h.isObject
  prettyPrint := h'.prettyPrint.trans h.prettyPrint
  deepestLevel := h'.deepestLevel.trans h.deepestLevel

/-- The function leaves the containers alone. It succeeds only where that is possible, and with
a reliable handler it does so. -/
structure WritesAt {α : Type} (possible : Prop) (function : Encode ω α)
    (context : EncodeContext ω) : Prop where
  quiet : Quiet context (endState (function context))
  sound : isOk (function context) = true → possible
  complete : Reliable context.handler → possible → isOk (function context) = true

namespace WritesAt

theorem pure {α : Type} (a : α) (context : EncodeContext ω) :
    WritesAt True (pure a) context where
  quiet := Quiet.refl context
  sound := fun _ => trivial
  complete := fun _ _ => rfl

theorem throw {α : Type} (e : JSONError) (context : EncodeContext ω) :
    WritesAt False (throw e : Encode ω α) context where
  quiet := Quiet.refl context
  sound := fun h => absurd h Bool.false_ne_true
  complete := fun _ h => h.elim

theorem bind {α β : Type} {possible possible' : Prop} {function : Encode ω α}
    {next : α → Encode ω β} {context : EncodeContext ω}
    (h : WritesAt possible function context)
    (h' : ∀ a context', Quiet context context' → WritesAt possible' (next a) context') :
    WritesAt (possible ∧ possible') (function >>= next) context := by
  obtain ⟨hquiet, hsound, hcomplete⟩ := h
  cases hrun : function context with
  | ok a context' =>
    rw [hrun] at hquiet hsound hcomplete
    have hnext := h' a context' hquiet
    constructor
    · rw [run_bind_ok hrun]
      exact hquiet.trans hnext.quiet
    · rw [run_bind_ok hrun]
      exact fun hok => ⟨hsound rfl, hnext.sound hok⟩
    · rw [run_bind_ok hrun]
      intro hreliable hpossible
      apply hnext.complete _ hpossible.2
      rw [show context'.handler = context.handler from hquiet.handler]
      exact hreliable
  | error e context' =>
    rw [hrun] at hquiet hcomplete
    constructor
    · rw [run_bind_error hrun]
      exact hquiet
    · rw [run_bind_error hrun]
      exact fun hok => absurd hok Bool.false_ne_true
    · intro hreliable hpossible
      exact absurd (hcomplete hreliable hpossible.1) Bool.false_ne_true

theorem congr {α : Type} {possible possible' : Prop} {function : Encode ω α}
    {context : EncodeContext ω} (h : WritesAt possible function context)
    (heq : possible ↔ possible') : WritesAt possible' function context :=
  ⟨h.quiet, fun hok => heq.mp (h.sound hok),
    fun hreliable hpossible => h.complete hreliable (heq.mpr hpossible)⟩

end WritesAt

theorem writesAt_addJSONData (data : Bytes) (context : EncodeContext ω) :
    WritesAt True (addJSONData data) context := by
  have hrun : addJSONData data context =
      if (context.handler data context.userData).1 then
        .ok () { context with userData := (context.handler data context.userData).2 }
      else .error .cannotAddData
        { context with userData := (context.handler data context.userData).2 } := by
    unfold addJSONData
    split <;> simp_all
  constructor
  · rw [hrun]
    split
    · exact ⟨rfl, rfl, rfl, rfl⟩
    · exact ⟨rfl, rfl, rfl, rfl⟩
  · exact fun _ => trivial
  · intro hreliable _
    rw [hrun, if_pos (hreliable _ _)]
    rfl

theorem mapM_escapeByte_isSome (string : Bytes) :
    (string.mapM escapeByte).isSome = escapable string := by
  unfold escapable
  induction string with
  | nil => rfl
  | cons c rest ih =>
    rw [List.mapM_cons, List.all_cons, ← ih]
    cases escapeByte c with
    | none => rfl
    | some escaped =>
      cases rest.mapM escapeByte with
      | none => rfl
      | some escapedRest => rfl

theorem writesAt_appendEscapedString (string : Bytes) (context : EncodeContext ω) :
    WritesAt (escapable string = true) (appendEscapedString string) context := by
  unfold appendEscapedString
  rw [← mapM_escapeByte_isSome]
  cases string.mapM escapeByte with
  | none => exact (WritesAt.throw _ context).congr (by simp)
  | some escaped => exact (writesAt_addJSONData _ context).congr (by simp)

theorem writesAt_forM {α : Type} {possible : α → Prop} {function : α → Encode ω PUnit}
    (h : ∀ a context, WritesAt (possible a) (function a) context) (values : List α)
    (context : EncodeContext ω) :
    WritesAt (∀ a ∈ values, possible a) (values.forM function) context := by
  induction values generalizing context with
  | nil => exact (WritesAt.pure PUnit.unit context).congr (by simp)
  | cons a rest ih =>
    change WritesAt _ (function a >>= fun _ => rest.forM function) context
    exact ((h a context).bind fun _ context' _ => ih context').congr (by simp)

theorem forall_portions (p : UInt8 → Bool) (count : Nat) (string : Bytes)
    (hcount : string.length ≤ count) :
    (∀ portion ∈ portions count string, portion.all p = true) ↔ string.all p = true := by
  induction count generalizing string with
  | zero =>
    have hnil : string = [] := List.eq_nil_of_length_eq_zero (by omega)
    simp [portions, hnil]
  | succ count ih =>
    rw [portions]
    split
    · rename_i hlength
      have hnil : string = [] := List.eq_nil_of_length_eq_zero hlength
      simp [hnil]
    · rename_i hlength
      have hdrop : (string.drop 256).length ≤ count := by
        rw [List.length_drop]
        omega
      rw [List.forall_mem_cons, ih _ hdrop]
      conv_rhs => rw [← List.take_append_drop 256 string, List.all_append]
      rw [Bool.and_eq_true]

theorem writesAt_addEscapedString (string : Bytes) (context : EncodeContext ω) :
    WritesAt (escapable string = true) (addEscapedString string) context := by
  apply (writesAt_forM writesAt_appendEscapedString _ context).congr
  exact forall_portions _ _ string (Nat.le_refl _)

/-- A failure is noted and the function succeeds. -/
theorem failed_run (function : Encode ω Unit) (context : EncodeContext ω) :
    failed function context = .ok (!isOk (function context)) (endState (function context)) := by
  unfold failed
  cases function context with
  | ok _ context' => rfl
  | error e context' => rfl

theorem writesAt_addQuotedEscapedString (string : Bytes) (context : EncodeContext ω) :
    WritesAt (escapable string = true) (addQuotedEscapedString string) context := by
  unfold addQuotedEscapedString
  refine ((writesAt_addJSONData _ context).bind fun _ opened _ => ?_).congr
    (iff_of_eq (true_and _))
  have hstring := writesAt_addEscapedString string opened
  have hclose := writesAt_addJSONData (ascii "\"") (endState (addEscapedString string opened))
  constructor
  · rw [run_bind_ok (failed_run _ opened), run_bind_ok (failed_run _ _)]
    refine (hstring.quiet.trans hclose.quiet).trans ?_
    split
    · exact Quiet.refl _
    · exact Quiet.refl _
  · rw [run_bind_ok (failed_run _ opened), run_bind_ok (failed_run _ _)]
    intro hok
    apply hstring.sound
    by_contra hfailed
    rw [Bool.not_eq_true] at hfailed
    rw [hfailed] at hok
    exact absurd hok Bool.false_ne_true
  · intro hreliable hescapable
    rw [run_bind_ok (failed_run _ opened), run_bind_ok (failed_run _ _)]
    rw [hstring.complete hreliable hescapable, hclose.complete _ trivial]
    · rfl
    · rw [hstring.quiet.handler]
      exact hreliable

theorem writesAt_addIndentation (level : Nat) (context : EncodeContext ω) :
    WritesAt True (addIndentation level) context := by
  induction level generalizing context with
  | zero => exact WritesAt.pure () context
  | succ level ih =>
    exact ((writesAt_addJSONData _ context).bind fun _ context' _ => ih context').congr
      (iff_of_eq (and_self _))

/-! The parts of `beginElement`. -/

def separate (context : EncodeContext ω) : Encode ω Unit :=
  if context.containerFirstEntry then set { context with containerFirstEntry := false }
  else addJSONData (ascii ",")

def breakLine (prettyPrint : Bool) (level : Nat) : Encode ω Unit :=
  if prettyPrint then do
    addJSONData (ascii "\n")
    addIndentation level
  else pure ()

def addName (prettyPrint : Bool) (containers : List Bool) (name : Option Bytes) :
    Encode ω Unit :=
  if containers.headD false then
    match name with
    | none => throw .invalidData
    | some name => do
      addQuotedEscapedString name
      addJSONData (if prettyPrint then ascii ": " else ascii ":")
  else pure ()

theorem beginElement_eq (name : Option Bytes) (context : EncodeContext ω) :
    beginElement name context = (do
      separate context
      breakLine (context.prettyPrint && context.containerLevel > 0) context.containerLevel
      addName context.prettyPrint context.isObject name) context := by
  unfold beginElement separate breakLine addName
  change ((if _ then _ else _) : Encode ω Unit) context = _
  by_cases h : context.prettyPrint = true ∧ context.containerLevel > 0
  · have hpretty : (context.prettyPrint && decide (context.containerLevel > 0)) = true := by
      rw [h.1, decide_eq_true h.2]
      rfl
    simp only [hpretty, if_pos h, if_true, bind_assoc]
    split
    · rfl
    · rfl
  · have hpretty : (context.prettyPrint && decide (context.containerLevel > 0)) = false := by
      simpa using h
    simp only [hpretty, if_neg h, if_false, Bool.false_eq_true, pure_bind]
    split
    · rfl
    · rfl

theorem quiet_firstEntry (context : EncodeContext ω) (firstEntry : Bool) :
    Quiet context { context with containerFirstEntry := firstEntry } := ⟨rfl, rfl, rfl, rfl⟩

theorem writesAt_separate (context : EncodeContext ω) :
    WritesAt True (separate context) context := by
  unfold separate
  split
  · exact ⟨quiet_firstEntry context false, fun _ => trivial, fun _ _ => rfl⟩
  · exact writesAt_addJSONData _ context

theorem writesAt_breakLine (prettyPrint : Bool) (level : Nat) (context : EncodeContext ω) :
    WritesAt True (breakLine prettyPrint level) context := by
  unfold breakLine
  split
  · exact ((writesAt_addJSONData _ context).bind fun _ context' _ =>
      writesAt_addIndentation level context').congr (iff_of_eq (and_self _))
  · exact WritesAt.pure () context

theorem writesAt_addName (prettyPrint : Bool) (containers : List Bool) (name : Option Bytes)
    (context : EncodeContext ω) :
    WritesAt (nameFits containers name = true) (addName prettyPrint containers name) context := by
  unfold addName nameFits
  cases containers.headD false with
  | false => exact (WritesAt.pure () context).congr (by simp)
  | true =>
    cases name with
    | none => exact (WritesAt.throw _ context).congr (by simp)
    | some name =>
      exact ((writesAt_addQuotedEscapedString name context).bind fun _ context' _ =>
        writesAt_addJSONData _ context').congr (by simp)

theorem writesAt_beginElement (name : Option Bytes) (context : EncodeContext ω) :
    WritesAt (nameFits context.isObject name = true) (beginElement name) context := by
  have hparts : WritesAt (nameFits context.isObject name = true) (do
      separate context
      breakLine (context.prettyPrint && context.containerLevel > 0) context.containerLevel
      addName context.prettyPrint context.isObject name) context :=
    ((writesAt_separate context).bind fun _ context' _ =>
      (writesAt_breakLine _ _ context').bind fun _ context'' _ =>
        writesAt_addName _ _ _ context'').congr (by simp)
  constructor
  · rw [beginElement_eq]
    exact hparts.quiet
  · rw [beginElement_eq]
    exact hparts.sound
  · rw [beginElement_eq]
    exact hparts.complete

/-- An element whose value is written in one piece. -/
theorem writesAt_element (name : Option Bytes) (value : Bytes) (context : EncodeContext ω) :
    WritesAt (nameFits context.isObject name = true)
      (beginElement name >>= fun _ => addJSONData value) context :=
  ((writesAt_beginElement name context).bind fun _ context' _ =>
    writesAt_addJSONData value context').congr (by simp)

theorem writesAt_stringElement (name : Option Bytes) (value : Bytes)
    (context : EncodeContext ω) :
    WritesAt ((nameFits context.isObject name && escapable value) = true)
      (addStringElement name (some value)) context :=
  ((writesAt_beginElement name context).bind fun _ context' _ =>
    writesAt_addQuotedEscapedString value context').congr (by simp)

/-! What the calls do to the containers. -/

/-- The function does what the first of the marks do, all of them when it succeeds. With a
reliable handler it fails only at a mark that the containers refuse. -/
structure FollowsAt (marks taken : List Mark) (context : EncodeContext ω)
    (result : EStateM.Result JSONError (EncodeContext ω) Unit) : Prop where
  initial : taken <+: marks
  containers : exec markStep context.isObject taken = some (endState result).isObject
  deepestLevel : (endState result).deepestLevel =
    deepest context.deepestLevel context.isObject taken
  handler : (endState result).handler = context.handler
  complete : isOk result = true → taken = marks
  refused : Reliable context.handler → isOk result = false →
    ∃ next rest, marks = taken ++ next :: rest ∧ markStep (endState result).isObject next = none

def Follows (marks : List Mark) (function : Encode ω Unit) : Prop :=
  ∀ context, ∃ taken, FollowsAt marks taken context (function context)

theorem deepest_append {first second : List Mark} {level : Nat} {containers containers' : List Bool}
    (h : exec markStep containers first = some containers') :
    deepest level containers (first ++ second) =
      deepest (deepest level containers first) containers' second := by
  induction first generalizing level containers with
  | nil =>
    cases h
    rfl
  | cons mark rest ih =>
    obtain ⟨next, hstep, hrest⟩ := exec_cons_eq_some.mp h
    cases mark with
    | element name value =>
      simp only [List.cons_append, deepest, hstep]
      exact ih hrest
    | beginContainer isObject name =>
      rw [markStep, Option.ite_none_right_eq_some, Option.some_inj] at hstep
      obtain ⟨hfits, rfl⟩ := hstep
      simp only [List.cons_append, deepest, hfits, if_true]
      exact ih hrest
    | endContainer above =>
      simp only [List.cons_append, deepest, hstep]
      exact ih hrest
    | invalid => simp [markStep] at hstep

theorem Follows.pure : Follows [] (pure () : Encode ω Unit) := fun _ =>
  ⟨[], List.prefix_rfl, rfl, rfl, rfl, fun _ => rfl,
    fun _ h => absurd h.symm Bool.false_ne_true⟩

theorem Follows.bind {marks marks' : List Mark} {function next : Encode ω Unit}
    (h : Follows marks function) (h' : Follows marks' next) :
    Follows (marks ++ marks') (function >>= fun _ => next) := by
  intro context
  obtain ⟨taken, htaken⟩ := h context
  cases hrun : function context with
  | ok _ context' =>
    rw [hrun] at htaken
    obtain ⟨taken', htaken'⟩ := h' context'
    have hall := htaken.complete rfl
    subst hall
    have hcontainers : exec markStep context.isObject taken = some context'.isObject :=
      htaken.containers
    have hhandler : context'.handler = context.handler := htaken.handler
    refine ⟨taken ++ taken', ?_⟩
    rw [run_bind_ok hrun]
    constructor
    · exact (List.prefix_append_right_inj taken).mpr htaken'.initial
    · rw [exec_append, hcontainers]
      exact htaken'.containers
    · rw [htaken'.deepestLevel, deepest_append hcontainers, ← htaken.deepestLevel]
      rfl
    · exact htaken'.handler.trans hhandler
    · intro hok
      rw [htaken'.complete hok]
    · intro hreliable hfailed
      obtain ⟨mark, rest, hmarks, hrefused⟩ :=
        htaken'.refused (hhandler ▸ hreliable) hfailed
      exact ⟨mark, rest, by rw [hmarks, List.append_assoc], hrefused⟩
  | error e context' =>
    rw [hrun] at htaken
    refine ⟨taken, ?_⟩
    rw [run_bind_error hrun]
    constructor
    · exact htaken.initial.trans (List.prefix_append _ _)
    · exact htaken.containers
    · exact htaken.deepestLevel
    · exact htaken.handler
    · exact fun hok => absurd hok Bool.false_ne_true
    · intro hreliable hfailed
      obtain ⟨mark, rest, hmarks, hrefused⟩ := htaken.refused hreliable hfailed
      exact ⟨mark, rest ++ marks', by rw [hmarks]; simp, hrefused⟩

/-- A mark that leaves the containers alone. -/
theorem Follows.element {name : Option Bytes} {value : Bytes} {function : Encode ω Unit}
    (h : ∀ context, WritesAt ((nameFits context.isObject name && escapable value) = true)
      function context) : Follows [.element name value] function := by
  intro context
  have hwrites := h context
  have hstep : markStep context.isObject (.element name value) =
      if nameFits context.isObject name && escapable value then some context.isObject
      else none := rfl
  cases hok : isOk (function context) with
  | true =>
    refine ⟨[.element name value], List.prefix_rfl, ?_, ?_, hwrites.quiet.handler,
      fun _ => rfl, fun _ h => absurd (hok.symm.trans h).symm Bool.false_ne_true⟩
    · rw [exec_single, hstep, if_pos (hwrites.sound hok), hwrites.quiet.isObject]
    · simp only [deepest, hstep, if_pos (hwrites.sound hok), hwrites.quiet.deepestLevel]
  | false =>
    refine ⟨[], List.nil_prefix, ?_, hwrites.quiet.deepestLevel, hwrites.quiet.handler,
      fun h => absurd (hok.symm.trans h) Bool.false_ne_true, fun hreliable _ => ?_⟩
    · rw [exec_nil, hwrites.quiet.isObject]
    · refine ⟨_, [], rfl, ?_⟩
      rw [hwrites.quiet.isObject, hstep, if_neg]
      intro hfits
      have := hwrites.complete hreliable hfits
      rw [hok] at this
      exact absurd this Bool.false_ne_true

theorem follows_beginContainer (isObject : Bool) (bracket : Bytes) (name : Option Bytes) :
    Follows [.beginContainer isObject name]
      (beginContainer isObject bracket name : Encode ω Unit) := by
  intro context
  obtain ⟨hquiet, hsound, hcomplete⟩ := writesAt_beginElement name context
  unfold beginContainer
  cases hrun : beginElement name context with
  | error e context' =>
    rw [hrun] at hquiet hsound hcomplete
    refine ⟨[], ?_⟩
    rw [run_bind_error hrun]
    refine ⟨List.nil_prefix, ?_, hquiet.deepestLevel, hquiet.handler,
      fun h => absurd h Bool.false_ne_true, fun hreliable _ => ?_⟩
    · rw [exec_nil, hquiet.isObject]
    · refine ⟨_, [], rfl, ?_⟩
      rw [hquiet.isObject, markStep, if_neg]
      exact fun hfits => absurd (hcomplete hreliable hfits) Bool.false_ne_true
  | ok _ context' =>
    rw [hrun] at hquiet hsound hcomplete
    have hfits := hsound rfl
    have hobject : context'.isObject = context.isObject := hquiet.isObject
    have hdeepest : context'.deepestLevel = context.deepestLevel := hquiet.deepestLevel
    have hhandler : context'.handler = context.handler := hquiet.handler
    refine ⟨[.beginContainer isObject name], ?_⟩
    rw [run_bind_ok hrun]
    generalize hopened : ({ context' with
      isObject := isObject :: context'.isObject
      containerFirstEntry := true
      deepestLevel := max context'.deepestLevel (context'.containerLevel + 1) } :
        EncodeContext ω) = opened
    have hmodify : (modify fun context : EncodeContext ω => { context with
        isObject := isObject :: context.isObject
        containerFirstEntry := true
        deepestLevel := max context.deepestLevel (context.containerLevel + 1) } :
          Encode ω PUnit) context' = .ok ⟨⟩ opened := by
      rw [← hopened]
      rfl
    rw [run_bind_ok hmodify]
    have hwrites := writesAt_addJSONData bracket opened
    constructor
    · exact List.prefix_rfl
    · rw [exec_single, hwrites.quiet.isObject, ← hopened, markStep, if_pos hfits, hobject]
    · rw [hwrites.quiet.deepestLevel, ← hopened]
      simp only [deepest, hfits, if_true, EncodeContext.containerLevel, hobject, hdeepest]
    · rw [hwrites.quiet.handler, ← hopened, hhandler]
    · exact fun _ => rfl
    · intro hreliable hfailed
      have hreliable' : Reliable opened.handler := by
        rw [← hopened, hhandler]
        exact hreliable
      rw [hwrites.complete hreliable' trivial] at hfailed
      exact absurd hfailed.symm Bool.false_ne_true

/-- What `endContainer` writes when the container is off the stack. -/
def closing (prettyPrint isObject : Bool) (level : Nat) : Encode ω Unit := do
  breakLine prettyPrint level
  modify fun context => { context with containerFirstEntry := false }
  addJSONData (if isObject then ascii "\x7d" else ascii "]")

theorem writesAt_closing (prettyPrint isObject : Bool) (level : Nat)
    (context : EncodeContext ω) : WritesAt True (closing prettyPrint isObject level) context := by
  have hmodify : ∀ context : EncodeContext ω, WritesAt True
      (modify fun context => { context with containerFirstEntry := false }) context :=
    fun context => ⟨quiet_firstEntry context false, fun _ => trivial, fun _ _ => rfl⟩
  exact ((writesAt_breakLine _ _ context).bind fun _ context' _ =>
    (hmodify context').bind fun _ context'' _ => writesAt_addJSONData _ context'').congr (by simp)

theorem endContainer_nil (context : EncodeContext ω) (h : context.isObject = []) :
    endContainer context = .ok () context := by
  have hget : (get : Encode ω (EncodeContext ω)) context = .ok context context := rfl
  unfold endContainer
  rw [run_bind_ok hget, h]
  rfl

theorem endContainer_cons (context : EncodeContext ω) (isObject : Bool) (containers : List Bool)
    (h : context.isObject = isObject :: containers) :
    endContainer context =
      closing (context.prettyPrint && !context.containerFirstEntry) isObject containers.length
        { context with isObject := containers } := by
  have hget : (get : Encode ω (EncodeContext ω)) context = .ok context context := rfl
  unfold endContainer closing breakLine
  rw [run_bind_ok hget, h]
  dsimp only
  by_cases hpretty : context.prettyPrint = true ∧ ¬context.containerFirstEntry = true
  · have hpretty' : (context.prettyPrint && !context.containerFirstEntry) = true := by
      simpa using hpretty
    simp only [hpretty', if_pos hpretty, if_true, bind_assoc]
    rfl
  · have hpretty' : (context.prettyPrint && !context.containerFirstEntry) = false := by
      simpa using hpretty
    simp only [hpretty, hpretty', if_false]
    rfl

theorem follows_endContainerAbove (above : Nat) :
    Follows [.endContainer above] (do
      let context ← get
      if context.containerLevel > above then endContainer : Encode ω Unit) := by
  intro context
  refine ⟨[.endContainer above], ?_⟩
  change FollowsAt _ _ context
    ((if context.containerLevel > above then endContainer else pure () : Encode ω Unit) context)
  have hstep : exec markStep context.isObject [.endContainer above] =
      some (if context.containerLevel > above then context.isObject.tail
        else context.isObject) := rfl
  have hdeepest : deepest context.deepestLevel context.isObject [.endContainer above] =
      context.deepestLevel := rfl
  split
  · rename_i hlevel
    rw [if_pos hlevel] at hstep
    cases hobject : context.isObject with
    | nil =>
      rw [EncodeContext.containerLevel, hobject] at hlevel
      exact absurd hlevel (Nat.not_lt_zero _)
    | cons isObject containers =>
      have hclosing := writesAt_closing (context.prettyPrint && !context.containerFirstEntry)
        isObject containers.length { context with isObject := containers }
      rw [endContainer_cons context isObject containers hobject]
      refine ⟨List.prefix_rfl, ?_, ?_, hclosing.quiet.handler, fun _ => rfl, ?_⟩
      · rw [hstep, hclosing.quiet.isObject, hobject]
        rfl
      · rw [hdeepest, hclosing.quiet.deepestLevel]
      · intro hreliable hfailed
        rw [hclosing.complete hreliable trivial] at hfailed
        exact absurd hfailed.symm Bool.false_ne_true
  · rename_i hlevel
    rw [if_neg hlevel] at hstep
    exact ⟨List.prefix_rfl, hstep, hdeepest.symm, rfl, fun _ => rfl,
      fun _ h => absurd h.symm Bool.false_ne_true⟩

theorem follows_endContainer : Follows [.endContainer 0] (endContainer : Encode ω Unit) := by
  have hend : (endContainer : Encode ω Unit) = (do
      let context ← get
      if context.containerLevel > 0 then endContainer : Encode ω Unit) := by
    funext context
    change _ = (if context.containerLevel > 0 then endContainer else pure () : Encode ω Unit)
      context
    split
    · rfl
    · rename_i hlevel
      exact endContainer_nil context (List.eq_nil_of_length_eq_zero (by
        unfold EncodeContext.containerLevel at hlevel
        omega))
  rw [hend]
  exact follows_endContainerAbove 0

/-! Events. -/

def Event.marks (closeLastContainer : Bool) (name : Option Bytes) : Event δ → List Mark
  | .stringElement value => [.element name value]
  | .beginObject => [.beginContainer true name]
  | .beginArray => [.beginContainer false name]
  | .endContainer => [.endContainer (if closeLastContainer then 0 else 2)]
  | .endData => []
  | _ => [.element name []]

def marksOf (closeLastContainer : Bool) (fired : List (Fired δ)) : List Mark :=
  fired.flatMap fun event => event.event.marks closeLastContainer event.name

theorem follows_valueElement {name : Option Bytes} {value : Bytes} :
    Follows [.element name []] (beginElement name >>= fun _ => addJSONData value :
      Encode ω Unit) :=
  Follows.element fun context => (writesAt_element name value context).congr (by
    simp [escapable])

theorem follows_addJSONFromFileOn (doubles : Doubles δ) (closeLastContainer : Bool)
    (name : Option Bytes) (event : Event δ) :
    Follows (event.marks closeLastContainer name)
      (addJSONFromFileOn doubles closeLastContainer name event : Encode ω Unit) := by
  cases event with
  | booleanElement value => exact follows_valueElement
  | floatingPointElement value =>
    unfold addJSONFromFileOn addFloatingPointElement
    dsimp only
    split
    · exact follows_valueElement
    · exact follows_valueElement
  | integerElement value => exact follows_valueElement
  | uintegerElement value => exact follows_valueElement
  | nullElement => exact follows_valueElement
  | stringElement value => exact Follows.element (writesAt_stringElement name value)
  | beginObject => exact follows_beginContainer _ _ _
  | beginArray => exact follows_beginContainer _ _ _
  | endContainer =>
    cases closeLastContainer with
    | true =>
      have hend : (addJSONFromFileOn doubles true name Event.endContainer : Encode ω Unit) =
          endContainer := by
        unfold addJSONFromFileOn
        simp only [true_or, if_true]
        rfl
      rw [hend]
      exact follows_endContainer
    | false =>
      have hend : (addJSONFromFileOn doubles false name Event.endContainer : Encode ω Unit) = (do
          let context ← get
          if context.containerLevel > 2 then endContainer) := by
        unfold addJSONFromFileOn
        simp
      rw [hend]
      exact follows_endContainerAbove 2
  | endData => exact Follows.pure

theorem follows_replay (doubles : Doubles δ) (closeLastContainer : Bool)
    (fired : List (Fired δ)) :
    Follows (marksOf closeLastContainer fired)
      (replay (addJSONFromFileOn doubles closeLastContainer) fired : Encode ω Unit) := by
  induction fired with
  | nil => exact Follows.pure
  | cons event rest ih =>
    exact (follows_addJSONFromFileOn doubles closeLastContainer event.name event.event).bind ih

/-! An encoder for examples without doubles. -/

def exampleDoubles : Doubles Unit where
  isnan _ := false
  snprintf _ := ascii "0"
  sscanf _ := ()
  negate _ := ()

/-- A report that is written nowhere. -/
def exampleContext : EncodeContext Unit := beginEncode false (fun _ _ => (true, ())) ()

end SentryCocoa.JSONCodec
