import SentryCocoa.JSONContainers

/-! Value trees, and the text that the encoder writes for them. The text is written down once
more as a function of the tree alone, to be read by the decoder. -/
namespace SentryCocoa.JSONCodec
open SentryCocoa.Library.Simulation

variable {ω δ : Type}

/-- A string that the encoder can write; a NUL is one of the characters that it cannot. -/
structure PlainString where
  bytes : Bytes
  plain : escapable bytes = true

inductive Tree where
  | null
  | boolean (value : Bool)
  | integer (value : Int64)
  | uinteger (value : UInt64)
  | string (value : PlainString)
  | array (values : List Tree)
  | object (entries : List (PlainString × Tree))

mutual

def encodeTree (name : Option Bytes) : Tree → Encode ω Unit
  | .null => addNullElement name
  | .boolean value => addBooleanElement name value
  | .integer value => addIntegerElement name value
  | .uinteger value => addUIntegerElement name value
  | .string value => addStringElement name (some value.bytes)
  | .array values => do
    beginArray name
    encodeTreeValues values
    endContainer
  | .object entries => do
    beginObject name
    encodeTreeEntries entries
    endContainer

def encodeTreeValues : List Tree → Encode ω Unit
  | [] => pure ()
  | value :: rest => do
    encodeTree none value
    encodeTreeValues rest

def encodeTreeEntries : List (PlainString × Tree) → Encode ω Unit
  | [] => pure ()
  | (key, value) :: rest => do
    encodeTree (some key.bytes) value
    encodeTreeEntries rest

end

/-- A handler that keeps all of the text. -/
def collect (data text : Bytes) : Bool × Bytes := (true, text ++ data)

/-- A whole document. -/
def encode (prettyPrint : Bool) (tree : Tree) :
    EStateM.Result JSONError (EncodeContext Bytes) Unit :=
  (do
    encodeTree none tree
    endEncode) (beginEncode prettyPrint collect [])

mutual

def Tree.depth : Tree → Nat
  | .array values => valuesDepth values + 1
  | .object entries => entriesDepth entries + 1
  | _ => 0

def valuesDepth : List Tree → Nat
  | [] => 0
  | value :: rest => max value.depth (valuesDepth rest)

def entriesDepth : List (PlainString × Tree) → Nat
  | [] => 0
  | (_, value) :: rest => max value.depth (entriesDepth rest)

end

/-! The text. -/

def escape (string : Bytes) : Bytes := string.flatMap fun c => (escapeByte c).getD []

def quoted (string : Bytes) : Bytes := ascii "\"" ++ escape string ++ ascii "\""

def lineBreak (prettyPrint : Bool) (level : Nat) : Bytes :=
  if prettyPrint then ascii "\n" ++ (List.replicate level (ascii "    ")).flatten else []

def colon (prettyPrint : Bool) : Bytes := if prettyPrint then ascii ": " else ascii ":"

/-- What stands between two elements of a container, or before the first one. -/
def separator (prettyPrint : Bool) (level : Nat) (first : Bool) : Bytes :=
  (if first then [] else ascii ",") ++ lineBreak prettyPrint level

mutual

/-- The level is that of the container that the tree stands in. -/
def Tree.text (prettyPrint : Bool) (level : Nat) : Tree → Bytes
  | .null => ascii "null"
  | .boolean value => if value then ascii "true" else ascii "false"
  | .integer value => signedDecimal value.toInt
  | .uinteger value => decimal value.toNat
  | .string value => quoted value.bytes
  | .array values =>
    ascii "[" ++ valuesText prettyPrint (level + 1) true values ++
      lineBreak (prettyPrint && !values.isEmpty) level ++ ascii "]"
  | .object entries =>
    ascii "\x7b" ++ entriesText prettyPrint (level + 1) true entries ++
      lineBreak (prettyPrint && !entries.isEmpty) level ++ ascii "\x7d"

def valuesText (prettyPrint : Bool) (level : Nat) (first : Bool) : List Tree → Bytes
  | [] => []
  | value :: rest =>
    separator prettyPrint level first ++ value.text prettyPrint level ++
      valuesText prettyPrint level false rest

def entriesText (prettyPrint : Bool) (level : Nat) (first : Bool) :
    List (PlainString × Tree) → Bytes
  | [] => []
  | (key, value) :: rest =>
    separator prettyPrint level first ++ quoted key.bytes ++ colon prettyPrint ++
      value.text prettyPrint level ++ entriesText prettyPrint level false rest

end

/-! What the functions write. -/

def EncodeContext.write (context : EncodeContext Bytes) (text : Bytes) : EncodeContext Bytes :=
  { context with userData := context.userData ++ text }

theorem EncodeContext.write_nil (context : EncodeContext Bytes) : context.write [] = context := by
  unfold EncodeContext.write
  rw [List.append_nil]

theorem EncodeContext.write_write (context : EncodeContext Bytes) (text text' : Bytes) :
    (context.write text).write text' = context.write (text ++ text') := by
  unfold EncodeContext.write
  dsimp only
  rw [List.append_assoc]

/-- With the handler that keeps the text, the function succeeds and the text gets longer. -/
def Writes (text : Bytes) (function : Encode Bytes Unit) : Prop :=
  ∀ context : EncodeContext Bytes, context.handler = collect →
    function context = .ok () (context.write text)

theorem Writes.bind {text text' : Bytes} {function next : Encode Bytes Unit}
    (h : Writes text function) (h' : Writes text' next) :
    Writes (text ++ text') (function >>= fun _ => next) := by
  intro context hcollect
  rw [run_bind_ok (h context hcollect), h' (context.write text) hcollect,
    EncodeContext.write_write]

theorem Writes.pure : Writes [] (pure ()) := by
  intro context _
  rw [EncodeContext.write_nil]
  rfl

theorem writes_addJSONData (data : Bytes) : Writes data (addJSONData data) := by
  intro context hcollect
  have hdata : context.handler data context.userData = (true, context.userData ++ data) := by
    rw [hcollect]
    rfl
  unfold addJSONData
  rw [hdata]
  rfl

theorem mapM_escapeByte {string : Bytes} (h : escapable string = true) :
    ∃ escaped, string.mapM escapeByte = some escaped ∧ escaped.flatten = escape string := by
  unfold escapable at h
  induction string with
  | nil => exact ⟨[], rfl, rfl⟩
  | cons c rest ih =>
    rw [List.all_cons, Bool.and_eq_true, Option.isSome_iff_exists] at h
    obtain ⟨⟨e, he⟩, hrest⟩ := h
    obtain ⟨escaped, hescaped, hflatten⟩ := ih hrest
    refine ⟨e :: escaped, ?_, ?_⟩
    · rw [List.mapM_cons, he, hescaped]
      rfl
    · rw [List.flatten_cons, hflatten, escape, escape, List.flatMap_cons, he]
      rfl

theorem writes_appendEscapedString {string : Bytes} (h : escapable string = true) :
    Writes (escape string) (appendEscapedString string) := by
  obtain ⟨escaped, hescaped, hflatten⟩ := mapM_escapeByte h
  unfold appendEscapedString
  rw [hescaped, ← hflatten]
  exact writes_addJSONData _

theorem writes_portions (count : Nat) {string : Bytes} (hcount : string.length ≤ count)
    (h : escapable string = true) :
    Writes (escape string) ((portions count string).forM appendEscapedString) := by
  induction count generalizing string with
  | zero =>
    rw [List.eq_nil_of_length_eq_zero (Nat.le_zero.mp hcount)]
    exact Writes.pure
  | succ count ih =>
    rw [portions]
    split
    · rename_i hlength
      rw [List.eq_nil_of_length_eq_zero hlength]
      exact Writes.pure
    · rename_i hlength
      have hsplit : escape string = escape (string.take 256) ++ escape (string.drop 256) := by
        conv_lhs => rw [← List.take_append_drop 256 string, escape, List.flatMap_append]
        rfl
      have hparts : escapable (string.take 256) = true ∧ escapable (string.drop 256) = true := by
        conv at h => rw [← List.take_append_drop 256 string]
        unfold escapable at h
        rw [List.all_append, Bool.and_eq_true] at h
        exact h
      rw [hsplit]
      apply (writes_appendEscapedString hparts.1).bind
      apply ih _ hparts.2
      rw [List.length_drop]
      omega

theorem writes_addEscapedString {string : Bytes} (h : escapable string = true) :
    Writes (escape string) (addEscapedString string) :=
  writes_portions string.length (Nat.le_refl _) h

theorem writes_addQuotedEscapedString {string : Bytes} (h : escapable string = true) :
    Writes (quoted string) (addQuotedEscapedString string) := by
  intro context hcollect
  unfold addQuotedEscapedString quoted
  have hopen := writes_addJSONData (ascii "\"") context hcollect
  have hstring := writes_addEscapedString h (context.write (ascii "\"")) hcollect
  have hclose := writes_addJSONData (ascii "\"")
    ((context.write (ascii "\"")).write (escape string)) hcollect
  rw [run_bind_ok hopen, run_bind_ok (failed_run _ _), hstring]
  dsimp only [endState, isOk]
  rw [run_bind_ok (failed_run _ _), hclose, EncodeContext.write_write,
    EncodeContext.write_write]
  rfl

theorem writes_addIndentation (level : Nat) :
    Writes (List.replicate level (ascii "    ")).flatten (addIndentation level) := by
  induction level with
  | zero => exact Writes.pure
  | succ level ih => exact (writes_addJSONData _).bind ih

theorem writes_breakLine (prettyPrint : Bool) (level : Nat) :
    Writes (lineBreak prettyPrint level) (breakLine prettyPrint level) := by
  unfold lineBreak breakLine
  split
  · exact (writes_addJSONData _).bind (writes_addIndentation level)
  · exact Writes.pure

/-- The name of an element that is written in an object. -/
def nameText (prettyPrint : Bool) (containers : List Bool) (name : Option Bytes) : Bytes :=
  if containers.headD false then
    match name with
    | none => []
    | some name => quoted name ++ colon prettyPrint
  else []

theorem writes_addName {prettyPrint : Bool} {containers : List Bool} {name : Option Bytes}
    (h : nameFits containers name = true) :
    Writes (nameText prettyPrint containers name) (addName prettyPrint containers name) := by
  unfold nameFits at h
  unfold nameText addName
  cases hobject : containers.headD false with
  | false => exact Writes.pure
  | true =>
    rw [hobject] at h
    cases name with
    | none => cases h
    | some name =>
      exact (writes_addQuotedEscapedString h).bind (writes_addJSONData _)

/-- All that is written of an element before its value. -/
def EncodeContext.introduction (context : EncodeContext ω) (name : Option Bytes) : Bytes :=
  (if context.containerFirstEntry then [] else ascii ",") ++
    lineBreak (context.prettyPrint && context.containerLevel > 0) context.containerLevel ++
      nameText context.prettyPrint context.isObject name

theorem beginElement_run {name : Option Bytes} {context : EncodeContext Bytes}
    (hcollect : context.handler = collect) (h : nameFits context.isObject name = true) :
    beginElement name context = .ok ()
      ({ context with containerFirstEntry := false }.write (context.introduction name)) := by
  rw [beginElement_eq]
  have hseparate : separate context context = .ok () ({ context with
      containerFirstEntry := false }.write
        (if context.containerFirstEntry then [] else ascii ",")) := by
    obtain ⟨handler, userData, isObject, firstEntry, prettyPrint, deepestLevel⟩ := context
    cases firstEntry with
    | true => exact congrArg (EStateM.Result.ok ()) (EncodeContext.write_nil _).symm
    | false => exact writes_addJSONData _ _ hcollect
  refine (run_bind_ok hseparate).trans ?_
  refine ((writes_breakLine _ _).bind (writes_addName h)
    ({ context with containerFirstEntry := false }.write _) hcollect).trans ?_
  rw [EncodeContext.write_write, EncodeContext.introduction, List.append_assoc]

/-- The encoder behind an element. -/
structure Encoded (text : Bytes) (firstEntry : Bool) (depth : Nat)
    (context context' : EncodeContext Bytes) : Prop where
  userData : context'.userData = context.userData ++ text
  containerFirstEntry : context'.containerFirstEntry = firstEntry
  handler : context'.handler = context.handler
  isObject : context'.isObject = context.isObject
  prettyPrint : context'.prettyPrint = context.prettyPrint
  deepestLevel : context'.deepestLevel ≤ max context.deepestLevel (context.containerLevel + depth)

theorem Encoded.containerLevel {text : Bytes} {firstEntry : Bool} {depth : Nat}
    {context context' : EncodeContext Bytes} (h : Encoded text firstEntry depth context context') :
    context'.containerLevel = context.containerLevel := by
  rw [EncodeContext.containerLevel, h.isObject, EncodeContext.containerLevel]

/-- The encoder at the begin of a container. -/
def EncodeContext.begun (context : EncodeContext Bytes) (isObject : Bool) (text : Bytes) :
    EncodeContext Bytes :=
  { context with
    userData := context.userData ++ text
    isObject := isObject :: context.isObject
    containerFirstEntry := true
    deepestLevel := max context.deepestLevel (context.containerLevel + 1) }

theorem beginContainer_run {isObject : Bool} {bracket : Bytes} {name : Option Bytes}
    {context : EncodeContext Bytes} (hcollect : context.handler = collect)
    (h : nameFits context.isObject name = true) :
    beginContainer isObject bracket name context =
      .ok () (context.begun isObject (context.introduction name ++ bracket)) := by
  unfold beginContainer
  rw [run_bind_ok (beginElement_run hcollect h)]
  refine (writes_addJSONData bracket { context with
    userData := context.userData ++ context.introduction name
    isObject := isObject :: context.isObject
    containerFirstEntry := true
    deepestLevel := max context.deepestLevel (context.containerLevel + 1) } hcollect).trans ?_
  unfold EncodeContext.write EncodeContext.begun
  dsimp only
  rw [List.append_assoc]

theorem endContainer_run {isObject : Bool} {containers : List Bool}
    {context : EncodeContext Bytes} (hcollect : context.handler = collect)
    (h : context.isObject = isObject :: containers) :
    endContainer context = .ok () ({ context with
      isObject := containers
      containerFirstEntry := false }.write
        (lineBreak (context.prettyPrint && !context.containerFirstEntry) containers.length ++
          (if isObject then ascii "\x7d" else ascii "]"))) := by
  rw [endContainer_cons context isObject containers h]
  unfold closing
  refine (run_bind_ok (writes_breakLine _ _ { context with isObject := containers }
    hcollect)).trans ?_
  refine (writes_addJSONData _ ({ context with
    isObject := containers
    containerFirstEntry := false }.write _) hcollect).trans ?_
  rw [EncodeContext.write_write]

theorem Encoded.value {name : Option Bytes} {context : EncodeContext Bytes} {text : Bytes}
    {function : Encode Bytes Unit} (hcollect : context.handler = collect)
    (h : nameFits context.isObject name = true) (hvalue : Writes text function) :
    ∃ context', (beginElement name >>= fun _ => function) context = .ok () context' ∧
      Encoded (context.introduction name ++ text) false 0 context context' := by
  refine ⟨_, (run_bind_ok (beginElement_run hcollect h)).trans (hvalue _ hcollect), ?_⟩
  rw [EncodeContext.write_write]
  exact ⟨rfl, rfl, rfl, rfl, rfl, Nat.le_max_left _ _⟩

theorem Encoded.container {isObject empty : Bool} {bracket inside : Bytes} {depth : Nat}
    {name : Option Bytes} {context inner : EncodeContext Bytes} {function : Encode Bytes Unit}
    (hcollect : context.handler = collect) (h : nameFits context.isObject name = true)
    (hrun : function (context.begun isObject (context.introduction name ++ bracket)) =
      .ok () inner)
    (hinner : Encoded inside empty depth
      (context.begun isObject (context.introduction name ++ bracket)) inner) :
    ∃ context', (do
        beginContainer isObject bracket name
        function
        endContainer) context = .ok () context' ∧
      Encoded (context.introduction name ++ (bracket ++ inside ++
        lineBreak (context.prettyPrint && !empty) context.containerLevel ++
          (if isObject then ascii "\x7d" else ascii "]"))) false (depth + 1) context context' := by
  have hend := endContainer_run (hinner.handler.trans hcollect) hinner.isObject
  refine ⟨_, (run_bind_ok (beginContainer_run hcollect h)).trans
    ((run_bind_ok hrun).trans hend), ?_⟩
  constructor
  · change inner.userData ++ _ = _
    rw [hinner.userData, hinner.prettyPrint, hinner.containerFirstEntry]
    simp only [EncodeContext.begun, List.append_assoc]
    rfl
  · rfl
  · exact hinner.handler
  · rfl
  · exact hinner.prettyPrint
  · have hdeepest := hinner.deepestLevel
    change inner.deepestLevel ≤ _
    unfold EncodeContext.begun EncodeContext.containerLevel at hdeepest
    unfold EncodeContext.containerLevel
    dsimp only at hdeepest
    rw [List.length_cons] at hdeepest
    omega

theorem introduction_value {containers : List Bool} {context : EncodeContext Bytes}
    (h : context.isObject = false :: containers) :
    context.introduction none =
      separator context.prettyPrint context.containerLevel context.containerFirstEntry := by
  unfold EncodeContext.introduction separator nameText EncodeContext.containerLevel
  rw [h]
  simp

theorem introduction_entry {containers : List Bool} {context : EncodeContext Bytes}
    (h : context.isObject = true :: containers) (key : Bytes) :
    context.introduction (some key) =
      separator context.prettyPrint context.containerLevel context.containerFirstEntry ++
        quoted key ++ colon context.prettyPrint := by
  unfold EncodeContext.introduction separator nameText EncodeContext.containerLevel
  rw [h]
  simp

/-- One element of a container, and then the others. -/
theorem Encoded.next {text text' : Bytes} {first last : Bool} {depth depth' : Nat}
    {context inner : EncodeContext Bytes} {function next : Encode Bytes Unit}
    (hrun : function context = .ok () inner)
    (h : Encoded text first depth context inner)
    (hnext : ∃ context', next inner = .ok () context' ∧ Encoded text' last depth' inner context') :
    ∃ context', (function >>= fun _ => next) context = .ok () context' ∧
      Encoded (text ++ text') last (max depth depth') context context' := by
  obtain ⟨context', hrun', h'⟩ := hnext
  refine ⟨context', (run_bind_ok hrun).trans hrun', ?_⟩
  constructor
  · rw [h'.userData, h.userData, List.append_assoc]
  · exact h'.containerFirstEntry
  · exact h'.handler.trans h.handler
  · exact h'.isObject.trans h.isObject
  · exact h'.prettyPrint.trans h.prettyPrint
  · have hdeepest := h.deepestLevel
    have hdeepest' := h'.deepestLevel
    unfold EncodeContext.containerLevel at hdeepest hdeepest' ⊢
    rw [h.isObject] at hdeepest'
    omega

mutual

theorem encodeTree_run (name : Option Bytes) (tree : Tree) (context : EncodeContext Bytes)
    (hcollect : context.handler = collect) (h : nameFits context.isObject name = true) :
    ∃ context', encodeTree name tree context = .ok () context' ∧
      Encoded (context.introduction name ++
        tree.text context.prettyPrint context.containerLevel) false tree.depth
        context context' := by
  cases tree with
  | null => exact Encoded.value hcollect h (writes_addJSONData _)
  | boolean value => exact Encoded.value hcollect h (writes_addJSONData _)
  | integer value => exact Encoded.value hcollect h (writes_addJSONData _)
  | uinteger value => exact Encoded.value hcollect h (writes_addJSONData _)
  | string value => exact Encoded.value hcollect h (writes_addQuotedEscapedString value.plain)
  | array values =>
    obtain ⟨inner, hrun, hinner⟩ := encodeTreeValues_run values
      (context.begun false (context.introduction name ++ ascii "[")) hcollect rfl
    exact Encoded.container hcollect h hrun hinner
  | object entries =>
    obtain ⟨inner, hrun, hinner⟩ := encodeTreeEntries_run entries
      (context.begun true (context.introduction name ++ ascii "\x7b")) hcollect rfl
    exact Encoded.container hcollect h hrun hinner

theorem encodeTreeValues_run (values : List Tree) (context : EncodeContext Bytes)
    (hcollect : context.handler = collect) {containers : List Bool}
    (h : context.isObject = false :: containers) :
    ∃ context', encodeTreeValues values context = .ok () context' ∧
      Encoded (valuesText context.prettyPrint context.containerLevel
          context.containerFirstEntry values)
        (context.containerFirstEntry && values.isEmpty) (valuesDepth values)
        context context' := by
  cases values with
  | nil =>
    refine ⟨context, rfl, ?_⟩
    exact ⟨(List.append_nil _).symm, (Bool.and_true _).symm, rfl, rfl, rfl,
      Nat.le_max_left _ _⟩
  | cons value rest =>
    have hfits : nameFits context.isObject none = true := by
      rw [h]
      rfl
    obtain ⟨inner, hrun, hinner⟩ := encodeTree_run none value context hcollect hfits
    have hrest := encodeTreeValues_run rest inner (hinner.handler.trans hcollect)
      (hinner.isObject.trans h)
    have hnext := Encoded.next hrun hinner hrest
    rw [introduction_value h, hinner.prettyPrint, hinner.containerLevel,
      hinner.containerFirstEntry, Bool.false_and] at hnext
    rw [List.isEmpty_cons, Bool.and_false]
    exact hnext

theorem encodeTreeEntries_run (entries : List (PlainString × Tree))
    (context : EncodeContext Bytes) (hcollect : context.handler = collect)
    {containers : List Bool} (h : context.isObject = true :: containers) :
    ∃ context', encodeTreeEntries entries context = .ok () context' ∧
      Encoded (entriesText context.prettyPrint context.containerLevel
          context.containerFirstEntry entries)
        (context.containerFirstEntry && entries.isEmpty) (entriesDepth entries)
        context context' := by
  cases entries with
  | nil =>
    refine ⟨context, rfl, ?_⟩
    exact ⟨(List.append_nil _).symm, (Bool.and_true _).symm, rfl, rfl, rfl,
      Nat.le_max_left _ _⟩
  | cons entry rest =>
    have hfits : nameFits context.isObject (some entry.1.bytes) = true := by
      rw [h]
      exact entry.1.plain
    obtain ⟨inner, hrun, hinner⟩ :=
      encodeTree_run (some entry.1.bytes) entry.2 context hcollect hfits
    have hrest := encodeTreeEntries_run rest inner (hinner.handler.trans hcollect)
      (hinner.isObject.trans h)
    have hnext := Encoded.next hrun hinner hrest
    rw [introduction_entry h, hinner.prettyPrint, hinner.containerLevel,
      hinner.containerFirstEntry, Bool.false_and] at hnext
    rw [List.isEmpty_cons, Bool.and_false]
    exact hnext

end

/-- The whole document is written, and no container gets deeper than the tree is. -/
theorem encode_run (prettyPrint : Bool) (tree : Tree) :
    ∃ context, encode prettyPrint tree = .ok () context ∧
      context.userData = tree.text prettyPrint 0 ∧ context.deepestLevel ≤ tree.depth := by
  obtain ⟨context, hrun, hencoded⟩ :=
    encodeTree_run none tree (beginEncode prettyPrint collect []) rfl rfl
  refine ⟨context, ?_, ?_, ?_⟩
  · unfold encode
    rw [run_bind_ok hrun]
    have hend : endEncode context = endContainers context.containerLevel context := rfl
    rw [hend, EncodeContext.containerLevel, hencoded.isObject]
    rfl
  · rw [hencoded.userData]
    cases prettyPrint with
    | true => rfl
    | false => rfl
  · have hdeepest := hencoded.deepestLevel
    change context.deepestLevel ≤ max 0 (0 + tree.depth) at hdeepest
    omega

end SentryCocoa.JSONCodec
