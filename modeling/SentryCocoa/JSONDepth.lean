import SentryCocoa.JSONContainers

/-! The depth of the containers. `isObject` has room for 200 entries, and nothing in the encoder
or in those who call it looks at the level before it grows: the Objective-C encoder follows its
object as deep as it goes, and decoded JSON is encoded again as it comes. -/
namespace SentryCocoa.JSONCodec
open SentryCocoa.Library.Simulation SentryCocoa.Library.Machine

variable {ω δ : Type}

/-! The Objective-C encoder. -/

/-- An object that can be encoded, or one of another class. Of a key there is its description,
of a date its text, and the keys are in the order in which they are written. -/
inductive Object (δ : Type) where
  | string (value : Bytes)
  | boolean (value : Bool)
  | floatingPoint (value : δ)
  | integer (value : Int64)
  | array (values : List (Object δ))
  | dictionary (entries : List (Bytes × Object δ))
  | null
  | date (text : Bytes)
  | data (bytes : Bytes)
  | other

section

variable (doubles : Doubles δ)

mutual

def encodeObject (name : Option Bytes) : Object δ → Encode ω Unit
  | .string value => addStringElement name (some value)
  | .boolean value => addBooleanElement name value
  | .floatingPoint value => addFloatingPointElement doubles name value
  | .integer value => addIntegerElement name value
  | .array values => do
    beginArray name
    encodeValues values
    endContainer
  | .dictionary entries => do
    beginObject name
    encodeEntries entries
    endContainer
  | .null => addNullElement name
  | .date text => addStringElement name (some text)
  | .data bytes => addDataElement name bytes
  | .other => throw .invalidData

def encodeValues : List (Object δ) → Encode ω Unit
  | [] => pure ()
  | value :: rest => do
    encodeObject none value
    encodeValues rest

def encodeEntries : List (Bytes × Object δ) → Encode ω Unit
  | [] => pure ()
  | (key, value) :: rest => do
    encodeObject (some (cString key)) value
    encodeEntries rest

end

end

mutual

def Object.marks (name : Option Bytes) : Object δ → List Mark
  | .string value => [.element name value]
  | .array values => .beginContainer false name :: valueMarks values ++ [.endContainer 0]
  | .dictionary entries => .beginContainer true name :: entryMarks entries ++ [.endContainer 0]
  | .date text => [.element name text]
  | .other => [.invalid]
  | _ => [.element name []]

def valueMarks : List (Object δ) → List Mark
  | [] => []
  | value :: rest => value.marks none ++ valueMarks rest

def entryMarks : List (Bytes × Object δ) → List Mark
  | [] => []
  | (key, value) :: rest => value.marks (some (cString key)) ++ entryMarks rest

end

theorem follows_addDataElement (name : Option Bytes) (value : Bytes) :
    Follows [.element name []] (addDataElement name value : Encode ω Unit) := by
  apply Follows.element
  intro context
  unfold addDataElement beginStringElement endStringElement appendDataElement
  refine ((writesAt_element name _ context).bind fun _ opened _ =>
    (writesAt_forM (fun _ => writesAt_addJSONData _) value opened).bind fun _ written _ =>
      writesAt_addJSONData _ written).congr ?_
  simp [escapable]

theorem follows_throw (e : JSONError) :
    Follows [.invalid] (throw e : Encode ω Unit) := fun _ =>
  ⟨[], List.nil_prefix, rfl, rfl, rfl, fun h => absurd h Bool.false_ne_true,
    fun _ _ => ⟨.invalid, [], rfl, rfl⟩⟩

mutual

theorem follows_encodeObject (doubles : Doubles δ) (name : Option Bytes) (object : Object δ) :
    Follows (object.marks name) (encodeObject doubles name object : Encode ω Unit) := by
  cases object with
  | string value => exact Follows.element (writesAt_stringElement name value)
  | boolean value => exact follows_valueElement
  | floatingPoint value =>
    exact follows_addJSONFromFileOn doubles true name (.floatingPointElement value)
  | integer value => exact follows_valueElement
  | array values =>
    exact (follows_beginContainer false _ name).bind
      ((follows_encodeValues doubles values).bind follows_endContainer)
  | dictionary entries =>
    exact (follows_beginContainer true _ name).bind
      ((follows_encodeEntries doubles entries).bind follows_endContainer)
  | null => exact follows_valueElement
  | date text => exact Follows.element (writesAt_stringElement name text)
  | data bytes => exact follows_addDataElement name bytes
  | other => exact follows_throw .invalidData

theorem follows_encodeValues (doubles : Doubles δ) (values : List (Object δ)) :
    Follows (valueMarks values) (encodeValues doubles values : Encode ω Unit) := by
  cases values with
  | nil => exact Follows.pure
  | cons value rest =>
    exact (follows_encodeObject doubles none value).bind (follows_encodeValues doubles rest)

theorem follows_encodeEntries (doubles : Doubles δ) (entries : List (Bytes × Object δ)) :
    Follows (entryMarks entries) (encodeEntries doubles entries : Encode ω Unit) := by
  cases entries with
  | nil => exact Follows.pure
  | cons entry rest =>
    exact (follows_encodeObject doubles (some (cString entry.1)) entry.2).bind
      (follows_encodeEntries doubles rest)

end

/-! The calls of whoever writes a report. -/

/-- The first is a call of the function that adds such an element to the encoder, or that begins
or ends a container. -/
inductive Call (δ : Type) where
  | add (name : Option Bytes) (event : Event δ)
  | addDataElement (name : Option Bytes) (value : Bytes)
  | beginStringElement (name : Option Bytes)
  | appendStringElement (value : Bytes)
  | appendDataElement (value : Bytes)
  | endStringElement
  | addJSONElement (name : Option Bytes) (jsonData : Bytes) (closeLastContainer : Bool)
  | addJSONFromFile (name : Option Bytes) (file : Bytes) (closeLastContainer : Bool)
  | encodeObject (name : Option Bytes) (object : Object δ)
  | endEncode

def Call.run (doubles : Doubles δ) : Call δ → Encode ω Unit
  | .add name event => addJSONFromFileOn doubles true name event
  | .addDataElement name value => JSONCodec.addDataElement name value
  | .beginStringElement name => JSONCodec.beginStringElement name
  | .appendStringElement value => JSONCodec.appendStringElement value
  | .appendDataElement value => JSONCodec.appendDataElement value
  | .endStringElement => JSONCodec.endStringElement
  | .addJSONElement name jsonData closeLastContainer =>
    JSONCodec.addJSONElement doubles name jsonData closeLastContainer
  | .addJSONFromFile name file closeLastContainer =>
    JSONCodec.addJSONFromFile doubles name file closeLastContainer
  | .encodeObject name object => JSONCodec.encodeObject doubles name object
  | .endEncode => JSONCodec.endEncode

/-- The caller goes on whether or not the call fails. -/
def callStep (doubles : Doubles δ) (context : EncodeContext ω) (call : Call δ) :
    Option (EncodeContext ω) := some (endState (call.run doubles context))

/-- `isObject` has 200 entries, and the level is an index into it. -/
def InBounds (context : EncodeContext ω) : Prop := context.deepestLevel < 200

instance (context : EncodeContext ω) : Decidable (InBounds context) := Nat.decLt _ _

/-- What the call would do to the containers. -/
def Call.marks (doubles : Doubles δ) (containers : List Bool) : Call δ → List Mark
  | .add name event => event.marks true name
  | .addDataElement name _ => [.element name []]
  | .beginStringElement name => [.element name []]
  | .appendStringElement _ => []
  | .appendDataElement _ => []
  | .endStringElement => []
  | .addJSONElement name jsonData closeLastContainer =>
    marksOf closeLastContainer (parseDocument doubles elementBuffers name jsonData).1
  | .addJSONFromFile name file closeLastContainer =>
    marksOf closeLastContainer (parseFile doubles name file).1
  | .encodeObject name object => object.marks name
  | .endEncode => List.replicate containers.length (.endContainer 0)

/-- No container of the call is begun at a level of 199 or more. -/
def Shallow (doubles : Doubles δ) (context : EncodeContext ω) (call : Call δ) : Prop :=
  deepest 0 context.isObject (call.marks doubles context.isObject) < 200

theorem deepest_eq_max (level : Nat) (containers : List Bool) (marks : List Mark) :
    deepest level containers marks = max level (deepest 0 containers marks) := by
  induction marks generalizing level containers with
  | nil => exact (Nat.max_zero level).symm
  | cons mark rest ih =>
    cases mark with
    | element name value =>
      simp only [deepest]
      cases markStep containers (.element name value) with
      | none => exact (Nat.max_zero level).symm
      | some containers' => exact ih level containers'
    | beginContainer isObject name =>
      simp only [deepest]
      split
      · rw [ih (max level _), ih (max 0 _)]
        omega
      · exact (Nat.max_zero level).symm
    | endContainer above => exact ih level _
    | invalid => exact (Nat.max_zero level).symm

theorem le_deepest (level : Nat) (containers : List Bool) (marks : List Mark) :
    level ≤ deepest level containers marks := by
  rw [deepest_eq_max]
  exact Nat.le_max_left _ _

theorem deepest_le_of_prefix {taken marks : List Mark} (h : taken <+: marks) {level : Nat}
    {containers containers' : List Bool}
    (hrun : exec markStep containers taken = some containers') :
    deepest level containers taken ≤ deepest level containers marks := by
  obtain ⟨rest, rfl⟩ := h
  rw [deepest_append hrun]
  exact le_deepest _ _ _

theorem length_le_deepest {level : Nat} {containers containers' : List Bool} {marks : List Mark}
    (hrun : exec markStep containers marks = some containers') (h : containers.length ≤ level) :
    containers'.length ≤ deepest level containers marks := by
  induction marks generalizing level containers with
  | nil =>
    cases hrun
    exact h
  | cons mark rest ih =>
    obtain ⟨next, hstep, hrest⟩ := exec_cons_eq_some.mp hrun
    cases mark with
    | element name value =>
      simp only [deepest, hstep]
      rw [markStep, Option.ite_none_right_eq_some, Option.some_inj] at hstep
      obtain ⟨_, rfl⟩ := hstep
      exact ih hrest h
    | beginContainer isObject name =>
      rw [markStep, Option.ite_none_right_eq_some, Option.some_inj] at hstep
      obtain ⟨hfits, rfl⟩ := hstep
      simp only [deepest, hfits, if_true]
      apply ih hrest
      rw [List.length_cons]
      omega
    | endContainer above =>
      simp only [deepest, hstep]
      apply ih hrest
      simp only [markStep, Option.some_inj] at hstep
      rw [← hstep]
      split
      · rw [List.length_tail]
        omega
      · exact h
    | invalid => simp [markStep] at hstep

theorem deepest_of_refused {taken rest : List Mark} {mark : Mark} {level : Nat}
    {containers containers' : List Bool} (hrun : exec markStep containers taken = some containers')
    (hrefused : markStep containers' mark = none) :
    deepest level containers (taken ++ mark :: rest) = deepest level containers taken := by
  rw [deepest_append hrun]
  cases mark with
  | beginContainer isObject name =>
    rw [markStep, ite_eq_right_iff] at hrefused
    have hfits : ¬nameFits containers' name = true := fun h => absurd (hrefused h) (by simp)
    simp only [deepest, hfits, Bool.false_eq_true, if_false]
  | element name value => simp only [deepest, hrefused]
  | endContainer above => simp only [deepest, hrefused]
  | invalid => simp only [deepest, hrefused]

/-- The containers do not get deeper than the marks make them, and with a reliable handler they
get as deep. -/
structure Within (marks : List Mark) (context context' : EncodeContext ω) : Prop where
  level : context'.containerLevel ≤ context'.deepestLevel
  handler : context'.handler = context.handler
  bound : context'.deepestLevel ≤ deepest context.deepestLevel context.isObject marks
  reached : Reliable context.handler →
    context'.deepestLevel = deepest context.deepestLevel context.isObject marks

theorem FollowsAt.within {marks taken : List Mark} {context : EncodeContext ω}
    {result : EStateM.Result JSONError (EncodeContext ω) Unit}
    (h : FollowsAt marks taken context result)
    (hlevel : context.containerLevel ≤ context.deepestLevel) :
    Within marks context (endState result) where
  level := by
    rw [h.deepestLevel]
    exact length_le_deepest h.containers hlevel
  handler := h.handler
  bound := by
    rw [h.deepestLevel]
    exact deepest_le_of_prefix h.initial h.containers
  reached := by
    intro hreliable
    rw [h.deepestLevel]
    cases hok : isOk result with
    | true => rw [h.complete hok]
    | false =>
      obtain ⟨next, rest, hmarks, hrefused⟩ := h.refused hreliable hok
      rw [hmarks, deepest_of_refused h.containers hrefused]

theorem Quiet.within {context context' : EncodeContext ω} (h : Quiet context context')
    (hlevel : context.containerLevel ≤ context.deepestLevel) : Within [] context context' where
  level := by
    rw [EncodeContext.containerLevel, h.isObject, h.deepestLevel]
    exact hlevel
  handler := h.handler
  bound := Nat.le_of_eq h.deepestLevel
  reached := fun _ => h.deepestLevel

theorem Follows.endsWithin {marks : List Mark} {function : Encode ω Unit}
    (h : Follows marks function) {context : EncodeContext ω}
    (hlevel : context.containerLevel ≤ context.deepestLevel) :
    Within marks context (endState (function context)) := by
  obtain ⟨taken, htaken⟩ := h context
  exact htaken.within hlevel

/-- To end a container makes none any deeper. -/
theorem Within.endContainer {marks : List Mark} {context context' : EncodeContext ω}
    (h : Within marks context context') :
    Within marks context (endState (endContainer context')) := by
  obtain ⟨taken, htaken⟩ := follows_endContainer context'
  have hend := htaken.within h.level
  have hdeepest : (endState (JSONCodec.endContainer context')).deepestLevel =
      context'.deepestLevel :=
    Nat.le_antisymm hend.bound (by
      rw [htaken.deepestLevel]
      exact le_deepest _ _ _)
  exact ⟨hend.level, hend.handler.trans h.handler, hdeepest.trans_le h.bound,
    fun hreliable => hdeepest.trans (h.reached hreliable)⟩

theorem Within.closeContainers {marks : List Mark} {context context' : EncodeContext ω}
    (h : Within marks context context') (count : Nat) :
    Within marks context (endState (closeContainers count context')) := by
  induction count generalizing context' with
  | zero => exact h
  | succ count ih =>
    rw [JSONCodec.closeContainers, run_bind_ok (failed_run JSONCodec.endContainer context')]
    exact ih h.endContainer

theorem Within.finishElement {marks : List Mark} {context : EncodeContext ω}
    {result : EStateM.Result JSONError (EncodeContext ω) Unit}
    (h : Within marks context (endState result)) (closeLastContainer : Bool)
    (containerLevel : Nat) :
    Within marks context (endState (finishElement closeLastContainer containerLevel result)) := by
  have hend : endState (JSONCodec.finishElement closeLastContainer containerLevel result) =
      if closeLastContainer then
        endState (JSONCodec.closeContainers ((endState result).containerLevel - containerLevel)
          (endState result))
      else endState result := by
    unfold JSONCodec.finishElement
    cases result with
    | ok _ context' => rfl
    | error e context' => rfl
  rw [hend]
  split
  · exact h.closeContainers _
  · exact h

/-- Whether the document could be read makes no difference to the containers. -/
theorem within_replay (doubles : Doubles δ) (closeLastContainer : Bool) (fired : List (Fired δ))
    {α : Type} (result : Except JSONError α) {context : EncodeContext ω}
    (hlevel : context.containerLevel ≤ context.deepestLevel) :
    Within (marksOf closeLastContainer fired) context (endState ((do
      replay (addJSONFromFileOn doubles closeLastContainer) fired
      let _ ← liftExcept result : Encode ω Unit) context)) := by
  have hfollows : Follows (marksOf closeLastContainer fired)
      (replay (addJSONFromFileOn doubles closeLastContainer) fired : Encode ω Unit) :=
    follows_replay doubles closeLastContainer fired
  have hreplay := hfollows.endsWithin hlevel
  cases hrun : replay (addJSONFromFileOn doubles closeLastContainer) fired context with
  | ok _ context' =>
    rw [hrun] at hreplay
    rw [run_bind_ok hrun]
    cases result with
    | ok a => exact hreplay
    | error e => exact hreplay
  | error e context' =>
    rw [hrun] at hreplay
    rw [run_bind_error hrun]
    exact hreplay

theorem follows_endContainers (count : Nat) :
    Follows (List.replicate count (.endContainer 0)) (endContainers count : Encode ω Unit) := by
  induction count with
  | zero => exact Follows.pure
  | succ count ih => exact follows_endContainer.bind ih

theorem within_run (doubles : Doubles δ) (call : Call δ) {context : EncodeContext ω}
    (hlevel : context.containerLevel ≤ context.deepestLevel) :
    Within (call.marks doubles context.isObject) context
      (endState (call.run doubles context)) := by
  cases call with
  | add name event => exact (follows_addJSONFromFileOn doubles true name event).endsWithin hlevel
  | addDataElement name value => exact (follows_addDataElement name value).endsWithin hlevel
  | beginStringElement name => exact follows_valueElement.endsWithin hlevel
  | appendStringElement value =>
    exact (writesAt_addEscapedString value context).quiet.within hlevel
  | appendDataElement value =>
    exact (writesAt_forM (fun _ => writesAt_addJSONData _) value context).quiet.within hlevel
  | endStringElement => exact (writesAt_addJSONData _ context).quiet.within hlevel
  | addJSONElement name jsonData closeLastContainer =>
    rw [Call.run, addJSONElement_eq]
    exact (within_replay doubles closeLastContainer _ _ hlevel).finishElement _ _
  | addJSONFromFile name file closeLastContainer =>
    rw [Call.run, addJSONFromFile_eq]
    exact (within_replay doubles closeLastContainer _ _ hlevel).finishElement _ _
  | encodeObject name object => exact (follows_encodeObject doubles name object).endsWithin hlevel
  | endEncode => exact (follows_endContainers context.containerLevel).endsWithin hlevel

/-- The level stays below 200 in every run whose calls begin no container deeper than that, and
where the handler takes all that it is given, in no other run. -/
theorem always_inBounds_iff (doubles : Doubles δ) (prettyPrint : Bool)
    (handler : Bytes → ω → Bool × ω) (userData : ω) (calls : List (Call δ)) :
    (Allowed (callStep doubles) (Shallow doubles)
        (beginEncode prettyPrint handler userData) calls →
      Always (callStep doubles) InBounds (beginEncode prettyPrint handler userData) calls) ∧
    (Reliable handler →
      Always (callStep doubles) InBounds (beginEncode prettyPrint handler userData) calls →
      Allowed (callStep doubles) (Shallow doubles)
        (beginEncode prettyPrint handler userData) calls) := by
  let inv : EncodeContext ω → Prop := fun context =>
    InBounds context ∧ context.containerLevel ≤ context.deepestLevel ∧ context.handler = handler
  have hinit : inv (beginEncode prettyPrint handler userData) :=
    ⟨show (0 : Nat) < 200 by decide, Nat.le_refl _, rfl⟩
  have keep : ∀ context call context', inv context → Shallow doubles context call →
      callStep doubles context call = some context' → inv context' := by
    intro context call context' ⟨hbounds, hlevel, hhandler⟩ hshallow hstep
    rw [callStep, Option.some_inj] at hstep
    subst hstep
    have hwithin := within_run doubles call hlevel
    refine ⟨?_, hwithin.level, hwithin.handler.trans hhandler⟩
    apply hwithin.bound.trans_lt
    rw [deepest_eq_max]
    exact Nat.max_lt.mpr ⟨hbounds, hshallow⟩
  have spoil : Reliable handler → ∀ context call context', inv context →
      ¬Shallow doubles context call → callStep doubles context call = some context' →
      ¬InBounds context' := by
    intro hreliable context call context' ⟨_, hlevel, hhandler⟩ hdeep hstep hbounds
    rw [callStep, Option.some_inj] at hstep
    subst hstep
    apply hdeep
    have hreached := (within_run doubles call hlevel).reached (hhandler ▸ hreliable)
    rw [InBounds, hreached, deepest_eq_max] at hbounds
    exact (Nat.max_lt.mp hbounds).2
  exact ⟨always_of_allowed (fun _ h => h.1) keep hinit,
    fun hreliable => (always_iff_allowed (fun _ h => h.1) keep (spoil hreliable) hinit calls).mp⟩

def nestedArrays (depth : Nat) : Bytes :=
  List.replicate depth '['.toUInt8 ++ List.replicate depth ']'.toUInt8

theorem always_inBounds_nested_two :
    Always (callStep exampleDoubles) InBounds exampleContext
      [.addJSONElement none (nestedArrays 2) true] := by
  apply (always_inBounds_iff exampleDoubles false (fun _ _ => (true, ())) ()
    [.addJSONElement none (nestedArrays 2) true]).1
  intro context _
  refine ⟨?_, trivial⟩
  unfold Shallow
  decide +kernel

/-- The document is accepted, and the level is an index behind the last entry. -/
theorem nested_arrays_reach_level_200 :
    isOk (Call.run exampleDoubles (.addJSONElement none (nestedArrays 200) true)
      exampleContext) = true ∧
    ¬Always (callStep exampleDoubles) InBounds exampleContext
      [.addJSONElement none (nestedArrays 200) true] := by
  have hdeepest : (endState (Call.run exampleDoubles
      (.addJSONElement none (nestedArrays 200) true) exampleContext)).deepestLevel = 200 := by
    decide +kernel
  refine ⟨by decide +kernel, fun always => ?_⟩
  have hbounds := (always.2 _ rfl).head
  rw [InBounds, hdeepest] at hbounds
  exact Nat.lt_irrefl _ hbounds

end SentryCocoa.JSONCodec
