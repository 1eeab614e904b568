import SentryCocoa.JSONContainers

/-! The nesting of decoded JSON. An element that is read to its end leaves the containers as they
were, and one that breaks off leaves open what it has begun. The report writer adds its elements
above the second level, where every end of a container is carried out. -/
namespace SentryCocoa.JSONCodec
open SentryCocoa.Library.Simulation SentryCocoa.Library.Machine

variable {ω δ ρ : Type}

/-! Marks above the second level. -/

/-- No mark ends a container that was open before. -/
def StaysAbove (marks : List Mark) : Prop :=
  ∀ containers taken containers', 2 ≤ containers.length → taken <+: marks →
    exec markStep containers taken = some containers' → containers.length ≤ containers'.length

/-- The containers are in the end what they were, when everything can be written. -/
def Restores (possible : List Bool → Bool) (marks : List Mark) : Prop :=
  ∀ containers, 2 ≤ containers.length →
    exec markStep containers marks = if possible containers then some containers else none

theorem staysAbove_nil : StaysAbove [] := by
  intro containers taken containers' _ htaken hrun
  rw [List.prefix_nil.mp htaken, exec_nil, Option.some_inj] at hrun
  rw [hrun]

theorem prefix_singleton {α : Type} {taken : List α} {last : α} (h : taken <+: [last]) :
    taken = [last] ∨ taken = [] := by
  cases taken with
  | nil => exact Or.inr rfl
  | cons first rest =>
    obtain ⟨rfl, hrest⟩ := List.cons_prefix_cons.mp h
    exact Or.inl (congrArg (first :: ·) (List.prefix_nil.mp hrest))

theorem prefix_append_cases {α : Type} {taken first second : List α}
    (h : taken <+: first ++ second) :
    taken <+: first ∨ ∃ rest, taken = first ++ rest ∧ rest <+: second := by
  rcases List.prefix_or_prefix_of_prefix h (List.prefix_append first second) with hfirst | hrest
  · exact Or.inl hfirst
  · obtain ⟨rest, rfl⟩ := hrest
    exact Or.inr ⟨rest, rfl, (List.prefix_append_right_inj first).mp h⟩

theorem StaysAbove.append {possible : List Bool → Bool} {marks marks' : List Mark}
    (hrestores : Restores possible marks) (h : StaysAbove marks) (h' : StaysAbove marks') :
    StaysAbove (marks ++ marks') := by
  intro containers taken containers' hlevel htaken hrun
  rcases prefix_append_cases htaken with hfirst | ⟨rest, rfl, hrest⟩
  · exact h containers taken containers' hlevel hfirst hrun
  · rw [exec_append, hrestores containers hlevel] at hrun
    split at hrun
    · exact h' containers rest containers' hlevel hrest hrun
    · exact absurd hrun (by simp)

theorem Restores.append {possible possible' : List Bool → Bool} {marks marks' : List Mark}
    (h : Restores possible marks) (h' : Restores possible' marks') :
    Restores (fun containers => possible containers && possible' containers)
      (marks ++ marks') := by
  intro containers hlevel
  dsimp only
  rw [exec_append, h containers hlevel]
  by_cases hpossible : possible containers = true
  · rw [if_pos hpossible, Option.bind_some, h' containers hlevel]
    simp only [hpossible, Bool.true_and]
  · rw [if_neg hpossible, Option.bind_none, if_neg]
    exact fun h => hpossible (Bool.and_eq_true_iff.mp h).1

/-- Inside of a container that is begun, none of the outer ones ends. -/
theorem StaysAbove.inner {marks taken : List Mark} (h : StaysAbove marks) {isObject : Bool}
    {name : Option Bytes} {containers containers' : List Bool} (hlevel : 2 ≤ containers.length)
    (htaken : .beginContainer isObject name :: taken <+: .beginContainer isObject name :: marks)
    (hrun : exec markStep containers (.beginContainer isObject name :: taken) =
      some containers') : containers.length < containers'.length := by
  obtain ⟨next, hstep, hrest⟩ := exec_cons_eq_some.mp hrun
  rw [markStep, Option.ite_none_right_eq_some, Option.some_inj] at hstep
  obtain ⟨_, rfl⟩ := hstep
  have hinner := h (isObject :: containers) taken containers'
    (by rw [List.length_cons]; omega) (List.cons_prefix_cons.mp htaken).2 hrest
  rw [List.length_cons] at hinner
  omega

theorem StaysAbove.beginContainer {marks : List Mark} (h : StaysAbove marks) (isObject : Bool)
    (name : Option Bytes) : StaysAbove (.beginContainer isObject name :: marks) := by
  intro containers taken containers' hlevel htaken hrun
  cases taken with
  | nil =>
    rw [exec_nil, Option.some_inj] at hrun
    rw [hrun]
  | cons mark taken =>
    obtain ⟨rfl, _⟩ := List.cons_prefix_cons.mp htaken
    exact Nat.le_of_lt (h.inner hlevel htaken hrun)

/-- A container is begun, filled and ended. -/
theorem Restores.container {possible : List Bool → Bool} {marks : List Mark}
    (h : Restores possible marks) (isObject : Bool) (name : Option Bytes) :
    Restores (fun containers => nameFits containers name && possible (isObject :: containers))
      (.beginContainer isObject name :: marks ++ [.endContainer 2]) := by
  intro containers hlevel
  dsimp only
  rw [List.cons_append, exec_cons, markStep]
  have hinner : 2 ≤ (isObject :: containers).length := by
    rw [List.length_cons]
    omega
  have hend : exec markStep (isObject :: containers) [.endContainer 2] = some containers := by
    rw [exec_single, markStep, if_pos (by rw [List.length_cons]; omega), List.tail_cons]
  by_cases hfits : nameFits containers name = true
  · rw [if_pos hfits, Option.bind_some, exec_append, h _ hinner]
    simp only [hfits, Bool.true_and]
    by_cases hpossible : possible (isObject :: containers) = true
    · rw [if_pos hpossible, if_pos hpossible, Option.bind_some, hend]
    · rw [if_neg hpossible, if_neg hpossible, Option.bind_none]
  · rw [if_neg hfits, Option.bind_none, if_neg]
    exact fun h => hfits (Bool.and_eq_true_iff.mp h).1

theorem StaysAbove.container {possible : List Bool → Bool} {marks : List Mark}
    (hrestores : Restores possible marks) (h : StaysAbove marks) (isObject : Bool)
    (name : Option Bytes) :
    StaysAbove (.beginContainer isObject name :: marks ++ [.endContainer 2]) := by
  intro containers taken containers' hlevel htaken hrun
  rcases List.prefix_concat_iff.mp htaken with rfl | hinner
  · rw [hrestores.container isObject name containers hlevel, Option.ite_none_right_eq_some,
      Option.some_inj] at hrun
    rw [hrun.2]
  · exact h.beginContainer isObject name containers taken containers' hlevel hinner hrun

theorem restores_element (name : Option Bytes) (value : Bytes) :
    Restores (fun containers => nameFits containers name && escapable value)
      [.element name value] := by
  intro containers _
  rw [exec_single, markStep]

theorem staysAbove_element (name : Option Bytes) (value : Bytes) :
    StaysAbove [.element name value] := by
  intro containers taken containers' hlevel htaken hrun
  rcases prefix_singleton htaken with rfl | rfl
  · rw [restores_element name value containers hlevel, Option.ite_none_right_eq_some,
      Option.some_inj] at hrun
    rw [hrun.2]
  · exact staysAbove_nil containers [] containers' hlevel List.nil_prefix hrun

/-! Events of a document. -/

def Fired.valueFits (fired : Fired δ) : Bool :=
  match fired.event with
  | .stringElement value => escapable value
  | _ => true

/-- The name and the string can be written. -/
def Fired.writable (fired : Fired δ) : Bool :=
  fired.name.all escapable && fired.valueFits

theorem marksOf_append (closeLastContainer : Bool) (first second : List (Fired δ)) :
    marksOf closeLastContainer (first ++ second) =
      marksOf closeLastContainer first ++ marksOf closeLastContainer second :=
  List.flatMap_append

/-- What is known of an element that is read, and of one that is not. -/
def ElementShape {α : Type} (name : Option Bytes) (fired : List (Fired δ))
    (result : Except JSONError α) : Prop :=
  StaysAbove (marksOf false fired) ∧
    match result with
    | .error _ => True
    | .ok _ => ∃ first rest, fired = first :: rest ∧ first.name = name ∧
        Restores (fun containers =>
          nameFits containers name && (first.valueFits && rest.all Fired.writable))
          (marksOf false fired)

/-- What is known of the inside of a container, up to its end. -/
def LoopShape {α : Type} (isObject : Bool) (fired : List (Fired δ))
    (result : Except JSONError α) : Prop :=
  match result with
  | .error _ => StaysAbove (marksOf false fired)
  | .ok _ => ∃ inner last possible, fired = inner ++ [last] ∧ last.event = .endContainer ∧
      last.name = none ∧ StaysAbove (marksOf false inner) ∧
      Restores possible (marksOf false inner) ∧
      ∀ containers, containers.headD false = isObject →
        possible containers = inner.all Fired.writable

theorem decodeScalar_marks {doubles : Doubles δ} {length : Nat} {c : UInt8} {rest : Bytes}
    {event : Event δ} {bufferPtr : Bytes}
    (h : decodeScalar doubles length c rest = .ok (event, bufferPtr)) (name : Option Bytes)
    (after : Bytes) : ∃ value, event.marks false name = [.element name value] ∧
      (⟨name, event, after⟩ : Fired δ).valueFits = escapable value := by
  have hliteral : ∀ literal literalEvent,
      decodeLiteral literal literalEvent (c :: rest) = .ok (event, bufferPtr) →
        event = literalEvent := by
    intro literal literalEvent hdecode
    unfold decodeLiteral at hdecode
    split at hdecode
    · cases hdecode
    · split at hdecode
      · cases hdecode
      · cases hdecode
        rfl
  have hnumber : ∀ negative start,
      decodeNumber doubles length negative start = .ok (event, bufferPtr) →
        event.marks false name = [.element name []] ∧
          (⟨name, event, after⟩ : Fired δ).valueFits = escapable [] := by
    intro negative start hdecode
    unfold decodeNumber at hdecode
    split at hdecode
    · cases hdecode
    · split at hdecode
      · cases hdecode
        exact ⟨rfl, rfl⟩
      · split at hdecode
        · cases hdecode
          exact ⟨rfl, rfl⟩
        · split at hdecode
          · cases hdecode
          · dsimp only at hdecode
            split at hdecode
            · cases hdecode
            · cases hdecode
              exact ⟨rfl, rfl⟩
  unfold decodeScalar at h
  split at h
  · cases hstring : decodeString length (c :: rest) with
    | error e =>
      rw [hstring] at h
      cases h
    | ok found =>
      rw [hstring] at h
      cases h
      exact ⟨found.1, rfl, rfl⟩
  · split at h
    · rw [hliteral _ _ h]
      exact ⟨[], rfl, rfl⟩
    · split at h
      · rw [hliteral _ _ h]
        exact ⟨[], rfl, rfl⟩
      · split at h
        · rw [hliteral _ _ h]
          exact ⟨[], rfl, rfl⟩
        · split at h
          · split at h
            · cases h
            · split at h
              · exact ⟨[], hnumber _ _ h⟩
              · cases h
          · split at h
            · exact ⟨[], hnumber _ _ h⟩
            · cases h

theorem nameFits_inside {name : Option Bytes} {isObject : Bool} (h : name.isSome = isObject)
    {containers : List Bool} (hcontainers : containers.headD false = isObject) :
    nameFits containers name = name.all escapable := by
  rw [nameFits, hcontainers, ← h]
  cases name with
  | none => rfl
  | some name => simp

/-- An element inside of a container, and what follows on it. -/
theorem LoopShape.cons {α β : Type} {isObject : Bool} {name : Option Bytes}
    {fired rest : List (Fired δ)} {value : α} {result : Except JSONError β}
    (helement : ElementShape name fired (Except.ok value : Except JSONError α))
    (hrest : LoopShape isObject rest result) (hname : name.isSome = isObject) :
    LoopShape isObject (fired ++ rest) result := by
  obtain ⟨habove, first, others, rfl, rfl, hrestores⟩ := helement
  cases result with
  | error e =>
    change StaysAbove (marksOf false (first :: others ++ rest))
    rw [marksOf_append]
    exact habove.append hrestores hrest
  | ok value' =>
    obtain ⟨inner, last, possible, rfl, hlast, hnone, habove', hrestores', hpossible⟩ := hrest
    have happend := hrestores.append hrestores'
    rw [← marksOf_append] at happend
    refine ⟨first :: others ++ inner, last, _, (List.append_assoc _ _ _).symm, hlast, hnone,
      ?_, happend, fun containers hcontainers => ?_⟩
    · rw [marksOf_append]
      exact habove.append hrestores habove'
    · rw [nameFits_inside hname hcontainers, hpossible containers hcontainers, List.all_append,
        List.all_cons, Fired.writable]
      simp only [Bool.and_assoc]

theorem lastFits {last : Fired δ} (hlast : last.event = .endContainer) (hnone : last.name = none) :
    last.writable = true := by
  rw [Fired.writable, Fired.valueFits, hlast, hnone]
  rfl

/-- A container around what was read of its inside. -/
theorem ElementShape.container {α : Type} {isObject : Bool} {fired : List (Fired δ)}
    {result : Except JSONError α} (h : LoopShape isObject fired result) (first : Fired δ)
    (hfirst : first.event.marks false first.name = [.beginContainer isObject first.name])
    (hfits : first.valueFits = true) : ElementShape first.name (first :: fired) result := by
  have hmarks : ∀ fired : List (Fired δ), marksOf false (first :: fired) =
      .beginContainer isObject first.name :: marksOf false fired := by
    intro fired
    rw [marksOf, List.flatMap_cons, hfirst]
    rfl
  cases result with
  | error e =>
    refine ⟨?_, trivial⟩
    rw [hmarks]
    exact StaysAbove.beginContainer h isObject first.name
  | ok value =>
    obtain ⟨inner, last, possible, rfl, hlast, hnone, habove, hrestores, hpossible⟩ := h
    have hend : marksOf false (inner ++ [last]) = marksOf false inner ++ [.endContainer 2] := by
      rw [marksOf_append]
      simp [marksOf, hlast, Event.marks]
    refine ⟨?_, first, inner ++ [last], rfl, rfl, ?_⟩
    · rw [hmarks, hend]
      exact habove.container hrestores isObject first.name
    · rw [hmarks, hend]
      intro containers hlevel
      have hcontainer := hrestores.container isObject first.name containers hlevel
      rw [List.cons_append] at hcontainer
      rw [hcontainer]
      simp only [hpossible (isObject :: containers) rfl, hfits, List.all_append, List.all_cons,
        List.all_nil, lastFits hlast hnone, Bool.true_and, Bool.and_true]

theorem ElementShape.scalar {α : Type} (first : Fired δ) {value : Bytes}
    (hmarks : first.event.marks false first.name = [.element first.name value])
    (hfits : first.valueFits = escapable value) (result : Except JSONError α) :
    ElementShape first.name [first] result := by
  have hmark : marksOf false [first] = [.element first.name value] := by
    rw [marksOf, List.flatMap_singleton, hmarks]
  refine ⟨?_, ?_⟩
  · rw [hmark]
    exact staysAbove_element first.name value
  · cases result with
    | error e => trivial
    | ok value' =>
      refine ⟨first, [], rfl, rfl, ?_⟩
      rw [hmark]
      intro containers hlevel
      rw [restores_element first.name value containers hlevel]
      simp only [hfits, List.all_nil, Bool.and_true]

theorem loopShape_end {α : Type} (isObject : Bool) (rest : Bytes) (result : α) :
    LoopShape isObject [(⟨none, .endContainer, rest⟩ : Fired δ)] (Except.ok result) :=
  ⟨[], _, fun _ => true, rfl, rfl, rfl, staysAbove_nil, fun _ _ => rfl, fun _ _ => rfl⟩

theorem parse_shape (doubles : Doubles δ) (buffers : DecodeBuffers)
    (update : Bytes → ρ → Bytes × ρ) (fuel : Nat) :
    (∀ name bufferPtr reader, ElementShape name
      (parseElement doubles buffers update fuel name bufferPtr reader).1
      (parseElement doubles buffers update fuel name bufferPtr reader).2) ∧
    (∀ bufferPtr reader, LoopShape false
      (parseArray doubles buffers update fuel bufferPtr reader).1
      (parseArray doubles buffers update fuel bufferPtr reader).2) ∧
    (∀ bufferPtr reader, LoopShape true
      (parseObject doubles buffers update fuel bufferPtr reader).1
      (parseObject doubles buffers update fuel bufferPtr reader).2) := by
  induction fuel with
  | zero => exact ⟨fun _ _ _ => ⟨staysAbove_nil, trivial⟩, fun _ _ => staysAbove_nil,
      fun _ _ => staysAbove_nil⟩
  | succ fuel ih =>
    obtain ⟨helement, harray, hobject⟩ := ih
    refine ⟨fun name bufferPtr reader => ?_, fun bufferPtr reader => ?_,
      fun bufferPtr reader => ?_⟩
    · rw [parseElement_succ]
      cases skipWhitespace bufferPtr with
      | nil => exact ⟨staysAbove_nil, trivial⟩
      | cons c rest =>
        dsimp only
        split
        · exact ElementShape.container (harray _ _) ⟨name, .beginArray, rest⟩ rfl rfl
        · split
          · exact ElementShape.container (hobject _ _) ⟨name, .beginObject, rest⟩ rfl rfl
          · cases hscalar : decodeScalar doubles buffers.stringBufferLength c rest with
            | error e => exact ⟨staysAbove_nil, trivial⟩
            | ok found =>
              obtain ⟨event, bufferPtr'⟩ := found
              obtain ⟨value, hmarks, hfits⟩ := decodeScalar_marks hscalar name bufferPtr'
              exact ElementShape.scalar ⟨name, event, bufferPtr'⟩ hmarks hfits _
    · rw [parseArray_succ]
      cases skipWhitespace bufferPtr with
      | nil => exact staysAbove_nil
      | cons c rest =>
        dsimp only
        split
        · exact loopShape_end false rest _
        · have hfirst := helement none (c :: rest) reader
          cases hparse : parseElement doubles buffers update fuel none (c :: rest) reader with
          | mk fired result =>
            rw [hparse] at hfirst
            cases result with
            | error e => exact hfirst.1
            | ok result =>
              obtain ⟨bufferPtr', reader'⟩ := result
              dsimp only
              cases skipComma bufferPtr' with
              | error e => exact hfirst.1
              | ok bufferPtr'' => exact LoopShape.cons hfirst (harray bufferPtr'' reader') rfl
    · rw [parseObject_succ]
      cases skipWhitespace bufferPtr with
      | nil => exact staysAbove_nil
      | cons c rest =>
        dsimp only
        split
        · exact loopShape_end true rest _
        · cases decodeName buffers.nameBufferLength (c :: rest) with
          | error e => exact staysAbove_nil
          | ok found =>
            obtain ⟨name, behind⟩ := found
            dsimp only
            have hfirst := helement (some name) behind reader
            cases hparse : parseElement doubles buffers update fuel (some name) behind reader with
            | mk fired result =>
              rw [hparse] at hfirst
              cases result with
              | error e => exact hfirst.1
              | ok result =>
                obtain ⟨bufferPtr', reader'⟩ := result
                dsimp only
                cases skipComma bufferPtr' with
                | error e => exact hfirst.1
                | ok bufferPtr'' =>
                  exact LoopShape.cons hfirst (hobject bufferPtr'' reader') rfl

/-! Elements of the report. -/

/-- What does not start with a bracket is no container. -/
def opensContainer (jsonData : Bytes) : Prop :=
  (skipWhitespace jsonData).head? = some '['.toUInt8 ∨
    (skipWhitespace jsonData).head? = some '\x7b'.toUInt8

/-- The decoder reads the whole element, and what is inside of it can be written. -/
def Readable (doubles : Doubles δ) (name : Option Bytes) (jsonData : Bytes) : Prop :=
  (∃ result, (parseDocument doubles elementBuffers name jsonData).2 = .ok result) ∧
    (parseDocument doubles elementBuffers name jsonData).1.tail.all Fired.writable = true

/-- The containers after an element are those of the first of its marks. -/
theorem containers_addJSONElement (doubles : Doubles δ) (name : Option Bytes) (jsonData : Bytes)
    {context : EncodeContext ω} (hreliable : Reliable context.handler) :
    ∃ taken, taken <+: marksOf false (parseDocument doubles elementBuffers name jsonData).1 ∧
      exec markStep context.isObject taken =
        some (endState (addJSONElement doubles name jsonData false context)).isObject ∧
      (taken = marksOf false (parseDocument doubles elementBuffers name jsonData).1 ∨
        ∃ next rest, marksOf false (parseDocument doubles elementBuffers name jsonData).1 =
            taken ++ next :: rest ∧
          markStep (endState (addJSONElement doubles name jsonData false context)).isObject next =
            none) := by
  obtain ⟨taken, htaken⟩ := follows_replay doubles false
    (parseDocument doubles elementBuffers name jsonData).1 context
  have hend : endState (addJSONElement doubles name jsonData false context) =
      endState (replay (addJSONFromFileOn doubles false)
        (parseDocument doubles elementBuffers name jsonData).1 context) := by
    rw [addJSONElement_eq]
    cases hrun : replay (addJSONFromFileOn doubles false)
        (parseDocument doubles elementBuffers name jsonData).1 context with
    | ok _ context' =>
      rw [run_bind_ok hrun]
      cases (parseDocument doubles elementBuffers name jsonData).2 with
      | ok result => rfl
      | error e => rfl
    | error e context' =>
      rw [run_bind_error hrun]
      rfl
  refine ⟨taken, htaken.initial, ?_, ?_⟩
  · rw [hend]
    exact htaken.containers
  · cases hok : isOk (replay (addJSONFromFileOn doubles false)
        (parseDocument doubles elementBuffers name jsonData).1 context) with
    | true => exact Or.inl (htaken.complete hok)
    | false =>
      rw [hend]
      exact Or.inr (htaken.refused hreliable hok)

/-- The events of a container are its begin and those of its inside. -/
theorem parseDocument_container (doubles : Doubles δ) (name : Option Bytes) {jsonData : Bytes}
    (h : opensContainer jsonData) :
    ∃ isObject first fired, (parseDocument doubles elementBuffers name jsonData).1 =
        first :: fired ∧
      marksOf false (first :: fired) = .beginContainer isObject name :: marksOf false fired ∧
      LoopShape isObject fired (parseDocument doubles elementBuffers name jsonData).2 := by
  obtain ⟨_, harray, hobject⟩ := parse_shape doubles elementBuffers (Prod.mk : Bytes → Unit → Bytes × Unit)
    (2 * jsonData.length)
  unfold parseDocument decodeFuel
  rw [parseElement_succ]
  unfold opensContainer at h
  cases hskip : skipWhitespace jsonData with
  | nil =>
    rw [hskip] at h
    simp at h
  | cons c rest =>
    rw [hskip, List.head?_cons, Option.some_inj, Option.some_inj] at h
    dsimp only
    by_cases hbracket : c = '['.toUInt8
    · rw [if_pos hbracket]
      exact ⟨false, _, _, rfl, rfl, harray rest ()⟩
    · rw [if_neg hbracket, if_pos (h.resolve_left hbracket)]
      exact ⟨true, _, _, rfl, rfl, hobject rest ()⟩

/-- What is no container leaves the containers alone. -/
theorem restored_of_scalar (doubles : Doubles δ) (name : Option Bytes) {jsonData : Bytes}
    (h : ¬opensContainer jsonData) {taken : List Mark} {containers containers' : List Bool}
    (htaken : taken <+: marksOf false (parseDocument doubles elementBuffers name jsonData).1)
    (hrun : exec markStep containers taken = some containers') : containers' = containers := by
  have hnil : taken <+: [] → containers' = containers := by
    intro hnil
    rw [List.prefix_nil.mp hnil, exec_nil, Option.some_inj] at hrun
    exact hrun.symm
  unfold parseDocument decodeFuel at htaken
  rw [parseElement_succ] at htaken
  unfold opensContainer at h
  cases hskip : skipWhitespace jsonData with
  | nil =>
    rw [hskip] at htaken
    exact hnil htaken
  | cons c rest =>
    rw [hskip, List.head?_cons, Option.some_inj, Option.some_inj, not_or] at h
    rw [hskip] at htaken
    dsimp only at htaken
    rw [if_neg h.1, if_neg h.2] at htaken
    cases hscalar : decodeScalar doubles elementBuffers.stringBufferLength c rest with
    | error e =>
      rw [hscalar] at htaken
      exact hnil htaken
    | ok found =>
      obtain ⟨event, bufferPtr⟩ := found
      obtain ⟨value, hmarks, -⟩ := decodeScalar_marks hscalar name bufferPtr
      rw [hscalar] at htaken
      dsimp only at htaken
      rw [marksOf, List.flatMap_singleton, hmarks] at htaken
      rcases prefix_singleton htaken with rfl | rfl
      · rw [exec_single, markStep, Option.ite_none_right_eq_some, Option.some_inj] at hrun
        exact hrun.2.symm
      · exact hnil List.nil_prefix

/-- A container that is begun is ended exactly when it is read to its end and all of its inside
can be written. -/
theorem container_restored_iff {α : Type} {isObject : Bool} {name : Option Bytes}
    {fired : List (Fired δ)} {result : Except JSONError α}
    (hshape : LoopShape isObject fired result)
    {containers containers' : List Bool} (hlevel : 2 ≤ containers.length)
    (hfits : nameFits containers name = true) {taken : List Mark}
    (htaken : taken <+: .beginContainer isObject name :: marksOf false fired)
    (hrun : exec markStep containers taken = some containers')
    (hend : taken = .beginContainer isObject name :: marksOf false fired ∨
      ∃ next rest, .beginContainer isObject name :: marksOf false fired = taken ++ next :: rest ∧
        markStep containers' next = none) :
    containers'.length = containers.length ↔
      (∃ value, result = .ok value) ∧ fired.all Fired.writable = true := by
  have hbegun : taken ≠ [] := by
    rintro rfl
    rw [exec_nil, Option.some_inj] at hrun
    subst hrun
    rcases hend with hall | ⟨next, rest, hnext, hrefused⟩
    · exact absurd hall (by simp)
    · obtain ⟨rfl, _⟩ := List.cons_eq_cons.mp hnext
      rw [markStep, if_pos hfits] at hrefused
      exact absurd hrefused (by simp)
  have hopen : ∀ marks, StaysAbove marks → taken <+: .beginContainer isObject name :: marks →
      containers.length < containers'.length := by
    intro marks habove hprefix
    cases taken with
    | nil => exact absurd rfl hbegun
    | cons mark inside =>
      obtain ⟨rfl, _⟩ := List.cons_prefix_cons.mp hprefix
      exact habove.inner hlevel hprefix hrun
  cases result with
  | error e =>
    have hdeeper := hopen _ hshape htaken
    refine iff_of_false (by omega) ?_
    rintro ⟨⟨value, hvalue⟩, -⟩
    cases hvalue
  | ok value =>
    obtain ⟨inner, last, possible, rfl, hlast, hnone, habove, hrestores, hpossible⟩ := hshape
    have hmarks : marksOf false (inner ++ [last]) = marksOf false inner ++ [.endContainer 2] := by
      rw [marksOf_append]
      simp [marksOf, hlast, Event.marks]
    have hwhole := hrestores.container isObject name containers hlevel
    simp only [hfits, Bool.true_and, hpossible (isObject :: containers) rfl] at hwhole
    rw [hmarks, ← List.cons_append] at htaken hend
    by_cases hwritable : inner.all Fired.writable = true
    · rw [if_pos hwritable] at hwhole
      refine iff_of_true ?_ ⟨⟨value, rfl⟩, ?_⟩
      · rcases hend with rfl | ⟨next, rest, hnext, hrefused⟩
        · rw [hwhole, Option.some_inj] at hrun
          rw [hrun]
        · rw [hnext, exec_append, hrun, Option.bind_some, exec_cons, hrefused] at hwhole
          exact absurd hwhole (by simp)
      · rw [List.all_append, hwritable, List.all_cons, lastFits hlast hnone]
        rfl
    · rw [if_neg hwritable] at hwhole
      have hdeeper : containers.length < containers'.length := by
        rcases List.prefix_concat_iff.mp htaken with rfl | hprefix
        · rw [hwhole] at hrun
          exact absurd hrun (by simp)
        · exact hopen _ habove hprefix
      refine iff_of_false (by omega) ?_
      rintro ⟨-, hall⟩
      rw [List.all_append, Bool.and_eq_true] at hall
      exact hwritable hall.1

/-- Above the second level and with a handler that takes everything, the element leaves the
level as it was if it is no container, if its name cannot be written, or if it can be read and
written to its end, and in no other case. -/
theorem containerLevel_addJSONElement_iff (doubles : Doubles δ) (name : Option Bytes)
    (jsonData : Bytes) (context : EncodeContext ω) (hreliable : Reliable context.handler)
    (hlevel : 2 ≤ context.containerLevel) :
    (endState (addJSONElement doubles name jsonData false context)).containerLevel =
        context.containerLevel ↔
      ¬opensContainer jsonData ∨ nameFits context.isObject name = false ∨
        Readable doubles name jsonData := by
  obtain ⟨taken, htaken, hrun, hend⟩ :=
    containers_addJSONElement doubles name jsonData hreliable
  unfold EncodeContext.containerLevel at hlevel ⊢
  generalize (endState (addJSONElement doubles name jsonData false context)).isObject =
    containers' at hrun hend ⊢
  by_cases hopens : opensContainer jsonData
  · unfold Readable
    obtain ⟨isObject, first, fired, hfired, hmarks, hshape⟩ :=
      parseDocument_container doubles name hopens
    rw [hfired, hmarks] at htaken hend
    rw [hfired, List.tail_cons]
    by_cases hfits : nameFits context.isObject name = true
    · rw [container_restored_iff hshape hlevel hfits htaken hrun hend]
      simp [hopens, hfits]
    · refine iff_of_true ?_ (Or.inr (Or.inl (Bool.not_eq_true _ ▸ hfits)))
      cases taken with
      | nil =>
        rw [exec_nil, Option.some_inj] at hrun
        rw [hrun]
      | cons mark inside =>
        obtain ⟨rfl, _⟩ := List.cons_prefix_cons.mp htaken
        rw [exec_cons, markStep, if_neg hfits] at hrun
        exact absurd hrun (by simp)
  · have hsame := restored_of_scalar doubles name hopens htaken hrun
    exact iff_of_true (by rw [hsame]) (Or.inl hopens)

/-- The encoder when the scope of the report is written. -/
def scopeContext : EncodeContext Unit :=
  endState ((do
    beginObject none
    beginObject (some (ascii "scope"))) exampleContext)

theorem containerLevel_addJSONElement_user :
    (endState (addJSONElement exampleDoubles (some (ascii "user"))
      (ascii "\x7b\"id\":[1,\"b\"]\x7d") false scopeContext)).containerLevel =
        scopeContext.containerLevel := by
  apply (containerLevel_addJSONElement_iff exampleDoubles (some (ascii "user"))
    (ascii "\x7b\"id\":[1,\"b\"]\x7d") scopeContext (fun _ _ => rfl) (by decide +kernel)).mpr
  refine Or.inr (Or.inr ⟨⟨([], ()), ?_⟩, ?_⟩)
  · decide +kernel
  · decide +kernel

/-- The user is added at level two, its object is never ended, and all of the scope that is
written next goes into it. -/
theorem truncated_user_stays_open :
    Reliable scopeContext.handler ∧ scopeContext.containerLevel = 2 ∧
      (endState (addJSONElement exampleDoubles (some (ascii "user")) (ascii "\x7b\"id\":") false
        scopeContext)).containerLevel = 3 :=
  ⟨fun _ _ => rfl, by decide +kernel, by decide +kernel⟩

end SentryCocoa.JSONCodec
