import SentryCocoa.JSONTruncation

/-! Objects that are written field by field, doubles among them. A double is printed by the C
library, and the decoder may read it back as an integer. -/
namespace SentryCocoa.JSONCodec
open SentryCocoa.Library.Simulation

variable {δ ω : Type}

inductive Scalar (δ : Type) where
  | integer (value : Int64)
  | boolean (value : Bool)
  | floatingPoint (value : δ)

/-- The name of a field and its value. -/
abbrev Entry (δ : Type) := PlainString × Scalar δ

def addField (doubles : Doubles δ) (field : Entry δ) : Encode ω Unit :=
  match field.2 with
  | .integer value => addIntegerElement (some field.1.bytes) value
  | .boolean value => addBooleanElement (some field.1.bytes) value
  | .floatingPoint value => addFloatingPointElement doubles (some field.1.bytes) value

def addFields (doubles : Doubles δ) : List (Entry δ) → Encode ω Unit
  | [] => pure ()
  | field :: rest => do
    addField doubles field
    addFields doubles rest

/-! The text. -/

def Scalar.text (doubles : Doubles δ) : Scalar δ → Bytes
  | .integer value => signedDecimal value.toInt
  | .boolean value => if value then ascii "true" else ascii "false"
  | .floatingPoint value =>
    if doubles.isnan value then ascii "null" else doubles.snprintf value

def fieldsText (doubles : Doubles δ) (prettyPrint : Bool) (level : Nat) (first : Bool) :
    List (Entry δ) → Bytes
  | [] => []
  | (key, value) :: rest =>
    separator prettyPrint level first ++ quoted key.bytes ++ colon prettyPrint ++
      value.text doubles ++ fieldsText doubles prettyPrint level false rest

theorem fieldsText_append (doubles : Doubles δ) (prettyPrint : Bool) (level : Nat) (first : Bool)
    (fields more : List (Entry δ)) :
    fieldsText doubles prettyPrint level first (fields ++ more) =
      fieldsText doubles prettyPrint level first fields ++
        fieldsText doubles prettyPrint level (first && fields.isEmpty) more := by
  induction fields generalizing first with
  | nil => rw [List.nil_append, List.isEmpty_nil, Bool.and_true, fieldsText, List.nil_append]
  | cons field rest ih =>
    rw [List.cons_append, fieldsText, fieldsText, ih, Bool.false_and, List.isEmpty_cons,
      Bool.and_false]
    simp only [List.append_assoc]

theorem addField_run (doubles : Doubles δ) (field : Entry δ) {context : EncodeContext Bytes}
    (hcollect : context.handler = collect) {containers : List Bool}
    (h : context.isObject = true :: containers) :
    ∃ context', addField doubles field context = .ok () context' ∧
      Encoded (separator context.prettyPrint context.containerLevel
          context.containerFirstEntry ++ quoted field.1.bytes ++ colon context.prettyPrint ++
        field.2.text doubles) false 0 context context' := by
  obtain ⟨key, value⟩ := field
  have hfits : nameFits context.isObject (some key.bytes) = true := by
    rw [h]
    exact key.plain
  rw [← introduction_entry h]
  cases value with
  | integer value => exact Encoded.value hcollect hfits (writes_addJSONData _)
  | boolean value => exact Encoded.value hcollect hfits (writes_addJSONData _)
  | floatingPoint value =>
    unfold addField addFloatingPointElement Scalar.text
    dsimp only
    split
    · exact Encoded.value hcollect hfits (writes_addJSONData _)
    · exact Encoded.value hcollect hfits (writes_addJSONData _)

theorem addFields_run (doubles : Doubles δ) (fields : List (Entry δ))
    (context : EncodeContext Bytes) (hcollect : context.handler = collect)
    {containers : List Bool} (h : context.isObject = true :: containers) :
    ∃ context', addFields doubles fields context = .ok () context' ∧
      Encoded (fieldsText doubles context.prettyPrint context.containerLevel
          context.containerFirstEntry fields)
        (context.containerFirstEntry && fields.isEmpty) 0 context context' := by
  induction fields generalizing context with
  | nil =>
    refine ⟨context, rfl, ?_⟩
    exact ⟨(List.append_nil _).symm, (Bool.and_true _).symm, rfl, rfl, rfl,
      Nat.le_max_left _ _⟩
  | cons field rest ih =>
    obtain ⟨inner, hrun, hinner⟩ := addField_run doubles field hcollect h
    have hrest := ih inner (hinner.handler.trans hcollect) (hinner.isObject.trans h)
    have hnext := Encoded.next hrun hinner hrest
    rw [hinner.prettyPrint, hinner.containerLevel, hinner.containerFirstEntry,
      Bool.false_and] at hnext
    rw [List.isEmpty_cons, Bool.and_false]
    exact hnext

/-- An object of the fields. -/
def encodeFields (doubles : Doubles δ) (prettyPrint : Bool) (fields : List (Entry δ)) :
    EStateM.Result JSONError (EncodeContext Bytes) Unit :=
  (do
    beginObject none
    addFields doubles fields
    endEncode) (beginEncode prettyPrint collect [])

def objectText (doubles : Doubles δ) (prettyPrint : Bool) (fields : List (Entry δ)) : Bytes :=
  ascii "\x7b" ++ fieldsText doubles prettyPrint 1 true fields ++
    lineBreak (prettyPrint && !fields.isEmpty) 0 ++ ascii "\x7d"

theorem encodeFields_run (doubles : Doubles δ) (prettyPrint : Bool) (fields : List (Entry δ)) :
    ∃ context, encodeFields doubles prettyPrint fields = .ok () context ∧
      context.userData = objectText doubles prettyPrint fields := by
  let start : EncodeContext Bytes := beginEncode prettyPrint collect []
  let begun : EncodeContext Bytes := start.begun true (start.introduction none ++ ascii "\x7b")
  have hbegin : beginObject none start = .ok () begun := beginContainer_run rfl rfl
  obtain ⟨inner, hrun, hinner⟩ := addFields_run doubles fields begun rfl rfl
  have hobject : inner.isObject = [true] := hinner.isObject
  have hend := endContainer_run (hinner.handler.trans rfl) hobject
  have hlevel : inner.containerLevel = 1 := by
    rw [EncodeContext.containerLevel, hobject]
    rfl
  have hencode : endEncode inner = endContainers 1 inner := by
    rw [← hlevel]
    rfl
  refine ⟨_, (run_bind_ok hbegin).trans ((run_bind_ok hrun).trans
    (hencode.trans (run_bind_ok hend))), ?_⟩
  change inner.userData ++ _ = _
  rw [hinner.userData, hinner.prettyPrint, hinner.containerFirstEntry]
  have hbefore : begun.userData = ascii "\x7b" := by
    cases prettyPrint with
    | true => rfl
    | false => rfl
  rw [hbefore, objectText]
  simp only [List.append_assoc]
  rfl

/-! Doubles. -/

/-- How a finite double is printed: a digit comes first, behind a minus sign at most. -/
def NumberText (text : Bytes) : Prop :=
  ∃ c more, isdigit c = true ∧ more.all isFPChar = true ∧
    (text = c :: more ∨ text = ascii "-" ++ c :: more) ∧ text.length < 50

theorem scanInteger_body (accum : Nat) {body : Bytes} (hbody : body.all isFPChar = true)
    {d : UInt8} (hd : isFPChar d = false) (rest : Bytes) :
    ∃ value isOverflow left, left.all isFPChar = true ∧
      scanInteger accum (body ++ d :: rest) = (value, isOverflow, left ++ d :: rest) := by
  induction body generalizing accum with
  | nil =>
    refine ⟨accum, false, [], rfl, ?_⟩
    have hdigit : ¬isdigit d = true := by
      rw [not_isdigit_of_not_isFPChar hd]
      exact Bool.false_ne_true
    rw [List.nil_append, scanInteger, if_neg hdigit]
  | cons c body ih =>
    have hrest : body.all isFPChar = true := by
      rw [List.all_cons, Bool.and_eq_true] at hbody
      exact hbody.2
    rw [List.cons_append, scanInteger]
    split
    · split
      · exact ⟨accum, true, c :: body, hbody, rfl⟩
      · dsimp only
        split
        · exact ⟨accum * 10, true, c :: body, hbody, rfl⟩
        · exact ih _ hrest
    · exact ⟨accum, false, c :: body, hbody, rfl⟩

/-- The number is read to its end, as whichever kind of number. -/
theorem decodeNumber_body (doubles : Doubles δ) {length : Nat} (negative : Bool) {body : Bytes}
    (hbody : body.all isFPChar = true) (hlength : body.length < length) {d : UInt8}
    (hd : isFPChar d = false) (rest : Bytes) :
    ∃ event, decodeNumber doubles length negative (body ++ d :: rest) = .ok (event, d :: rest) ∧
      event.lookahead = 1 := by
  obtain ⟨value, isOverflow, left, hleft, hscan⟩ := scanInteger_body 0 hbody hd rest
  have hdrop : (left ++ d :: rest).dropWhile isFPChar = d :: rest := by
    rw [List.dropWhile_append_of_pos (List.all_eq_true.mp hleft), List.dropWhile_cons_of_neg]
    rw [hd]
    exact Bool.false_ne_true
  have hfound : ∃ event, decodeNumber doubles length negative (body ++ d :: rest) =
      .ok (event, d :: rest) := by
    unfold decodeNumber
    rw [hscan]
    cases left with
    | nil =>
      rw [List.nil_append] at hdrop ⊢
      dsimp only
      split
      · exact ⟨_, rfl⟩
      · split
        · exact ⟨_, rfl⟩
        · rw [hdrop]
          dsimp only
          rw [if_neg]
          · exact ⟨_, rfl⟩
          · rw [List.length_append]
            omega
    | cons c left =>
      rw [List.all_cons, Bool.and_eq_true] at hleft
      rw [List.cons_append] at hdrop ⊢
      dsimp only
      rw [if_neg (fun h => h.1 hleft.1), if_neg (fun h => h.1 hleft.1), hdrop]
      dsimp only
      rw [if_neg]
      · exact ⟨_, rfl⟩
      · rw [List.length_append]
        omega
  obtain ⟨event, hevent⟩ := hfound
  exact ⟨event, hevent, (decodeNumber_lookahead hevent).1⟩

theorem readsScalar_number (doubles : Doubles δ) {length : Nat} (hlength : 50 ≤ length)
    {text : Bytes} (h : NumberText text) {behind : Bytes} (hbehind : EndsNumber behind) :
    ∃ c more event, ReadsScalar doubles length text behind c more event ∧
      event.lookahead = 1 := by
  obtain ⟨c, more, hdigit, hmore, htext, hshort⟩ := h
  obtain ⟨d, rest, rfl, hd⟩ := hbehind
  obtain ⟨hspace, harray, hend, hobject, -⟩ := isdigit_spec c hdigit
  have hbody : (c :: more).all isFPChar = true := by
    rw [List.all_cons, hmore, Bool.and_true, isFPChar, hdigit, Bool.true_or]
  rcases htext with rfl | rfl
  · obtain ⟨event, hevent, hnumber⟩ :=
      decodeNumber_body doubles false hbody (hshort.trans_le hlength) hd rest
    refine ⟨c, more, event, ⟨rfl, ⟨hspace, hend⟩, harray, hobject, ?_⟩, hnumber⟩
    rw [decodeScalar_digit doubles length hdigit]
    exact hevent
  · rw [List.length_append] at hshort
    obtain ⟨event, hevent, hnumber⟩ :=
      decodeNumber_body doubles true hbody (by omega : (c :: more).length < length) hd rest
    refine ⟨'-'.toUInt8, c :: more, event,
      ⟨rfl, ⟨by decide, by decide⟩, by decide, by decide, ?_⟩, hnumber⟩
    exact (decodeScalar_minus doubles length hdigit (more ++ d :: rest)).trans hevent

/-! The events. -/

/-- The event that a value is read as. -/
def Scalar.ReadAs : Scalar δ → Event δ → Prop
  | .integer value, event => event = .integerElement value
  | .boolean value, event => event = .booleanElement value
  | .floatingPoint _, event => event = .nullElement ∨ event.lookahead = 1

/-- Enough stands behind the value to see that it ends there. -/
def Scalar.Complete (behind : Bytes) : Scalar δ → Prop
  | .boolean _ => True
  | _ => EndsNumber behind

theorem EndsNumber.complete {behind : Bytes} (h : EndsNumber behind) (value : Scalar δ) :
    value.Complete behind := by
  cases value with
  | boolean value => trivial
  | integer value => exact h
  | floatingPoint value => exact h

/-- A double is finite, or it is no number. -/
def Scalar.Printed (doubles : Doubles δ) : Scalar δ → Prop
  | .floatingPoint value => doubles.isnan value = false → NumberText (doubles.snprintf value)
  | _ => True

/-- The name of the field fits in the buffer for names, and its value is read back. -/
structure Entry.Readable (doubles : Doubles δ) (buffers : DecodeBuffers) (field : Entry δ) : Prop where
  key : (escape field.1.bytes).length < buffers.nameBufferLength
  value : field.2.Printed doubles

theorem behindComma_single (fired : Fired δ) (behind : Bytes)
    (rest : Bytes → Unit → List (Fired δ) × Except JSONError (Bytes × Unit)) :
    (behindComma ([fired], .ok (behind, ())) rest).1.map Fired.pair =
      fired.pair :: (behindComma ([], .ok (behind, ())) rest).1.map Fired.pair := by
  unfold behindComma
  dsimp only
  cases skipComma behind with
  | error e => rfl
  | ok behind' => rfl

section

variable {doubles : Doubles δ} {buffers : DecodeBuffers}
variable (hlength : 50 ≤ buffers.stringBufferLength)

include hlength

theorem readsScalar_scalar {value : Scalar δ} (hprinted : value.Printed doubles)
    {behind : Bytes} (hbehind : value.Complete behind) :
    ∃ c more event,
      ReadsScalar doubles buffers.stringBufferLength (value.text doubles) behind c more event ∧
        value.ReadAs event := by
  obtain ⟨hfalse, htrue, -⟩ := decodeScalar_literal doubles buffers.stringBufferLength behind
  cases value with
  | integer value =>
    obtain ⟨d, rest, rfl, hd⟩ := hbehind
    obtain ⟨c, more, hreads⟩ :=
      readsScalar_integer doubles buffers.stringBufferLength value hd rest
    exact ⟨c, more, _, hreads, rfl⟩
  | boolean value =>
    cases value with
    | false =>
      exact ⟨_, _, _, ⟨show ascii "false" = _ by decide, ⟨by decide, by decide⟩,
          by decide, by decide, hfalse⟩, rfl⟩
    | true =>
      exact ⟨_, _, _, ⟨show ascii "true" = _ by decide, ⟨by decide, by decide⟩,
          by decide, by decide, htrue⟩, rfl⟩
  | floatingPoint value =>
    change ∃ c more event, ReadsScalar doubles buffers.stringBufferLength
      (if doubles.isnan value then ascii "null" else doubles.snprintf value) behind c more event ∧ _
    cases hnan : doubles.isnan value with
    | true =>
      obtain ⟨-, -, hnull⟩ := decodeScalar_literal doubles buffers.stringBufferLength behind
      exact ⟨_, _, _, ⟨show ascii "null" = _ by decide, ⟨by decide, by decide⟩,
          by decide, by decide, hnull⟩, Or.inl rfl⟩
    | false =>
      obtain ⟨c, more, event, hreads, hnumber⟩ :=
        readsScalar_number doubles hlength (hprinted hnan) hbehind
      exact ⟨c, more, event, hreads, Or.inr hnumber⟩

/-- One field, and then what stands behind it. -/
theorem parse_field {key : PlainString} {value : Scalar δ}
    (hfield : Entry.Readable doubles buffers (key, value)) {behind : Bytes} (hbehind : value.Complete behind) (prettyPrint : Bool) {white : Bytes}
    (hwhite : white.all isspace = true) (fuel : Nat) :
    ∃ event, value.ReadAs event ∧
      parseObject doubles buffers Prod.mk (fuel + 2)
          (white ++ (quoted key.bytes ++ (colon prettyPrint ++
            (value.text doubles ++ behind)))) () =
        behindComma ([⟨some key.bytes, event, behind⟩], .ok (behind, ()))
          (parseObject doubles buffers Prod.mk (fuel + 1)) := by
  obtain ⟨c, more, event, hreads, hvalue⟩ := readsScalar_scalar hlength hfield.value hbehind
  refine ⟨event, hvalue, ?_⟩
  have hname := decodeName_quoted key hfield.key prettyPrint hreads.starts.space hreads.text behind
  have hskip : skipWhitespace (white ++ (quoted key.bytes ++ (colon prettyPrint ++
      (value.text doubles ++ behind)))) = quoted key.bytes ++ (colon prettyPrint ++
        (value.text doubles ++ behind)) := skipWhitespace_append hwhite (by decide) _
  have hspace : skipWhitespace (value.text doubles ++ behind) = c :: (more ++ behind) := by
    rw [hreads.text]
    exact skipWhitespace_cons hreads.starts.space _
  have helement : parseElement doubles buffers Prod.mk (fuel + 1) (some key.bytes)
      (value.text doubles ++ behind) () =
        ([⟨some key.bytes, event, behind⟩], .ok (behind, ())) := by
    rw [parseElement_succ, hspace]
    dsimp only
    rw [if_neg hreads.beginArray, if_neg hreads.beginObject, hreads.decode]
  rw [parseObject_succ, hskip]
  have hquote : ∀ rest, quoted key.bytes ++ rest =
      '"'.toUInt8 :: (escape key.bytes ++ ascii "\"" ++ rest) := fun rest => rfl
  rw [hquote] at hname ⊢
  dsimp only
  rw [if_neg (by decide), hname]
  dsimp only
  rw [helement]
  rfl

/-- A field and the name and event that it is read as. -/
def ReadField (field : Entry δ) (pair : Option Bytes × Event δ) : Prop :=
  pair.1 = some field.1.bytes ∧ field.2.ReadAs pair.2

/-- All of the fields are read, and then what stands behind the last one. -/
theorem parse_fields (fields : List (Entry δ)) {last : Entry δ} {behind : Bytes}
    (hbehind : last.2.Complete behind)
    (hfields : ∀ field ∈ fields ++ [last], Entry.Readable doubles buffers field)
    (prettyPrint : Bool) (level fuel : Nat) :
    ∃ events, List.Forall₂ ReadField (fields ++ [last]) events ∧
      (parseObject doubles buffers Prod.mk (fuel + fields.length + 2)
          (fieldsText doubles prettyPrint level true (fields ++ [last]) ++ behind)
            ()).1.map Fired.pair =
        events ++ (behindComma (([], .ok (behind, ())) : List (Fired δ) × _)
          (parseObject doubles buffers Prod.mk (fuel + 1))).1.map Fired.pair := by
  induction fields with
  | nil =>
    obtain ⟨event, hvalue, hparse⟩ := parse_field hlength
      (hfields last (List.mem_singleton_self last)) hbehind prettyPrint
      (all_isspace_lineBreak prettyPrint level) fuel
    refine ⟨[(some last.1.bytes, event)], List.Forall₂.cons ⟨rfl, hvalue⟩ List.Forall₂.nil, ?_⟩
    have htext : fieldsText doubles prettyPrint level true ([] ++ [last]) ++ behind =
        lineBreak prettyPrint level ++ (quoted last.1.bytes ++ (colon prettyPrint ++
          (last.2.text doubles ++ behind))) := by
      simp [fieldsText, separator]
    rw [htext]
    exact (congrArg (fun parsed => parsed.1.map Fired.pair) hparse).trans
      (behindComma_single _ _ _)
  | cons field rest ih =>
    obtain ⟨events, hevents, hpairs⟩ :=
      ih fun other hother => hfields other (List.mem_cons_of_mem _ hother)
    have hcontinue : fieldsText doubles prettyPrint level false (rest ++ [last]) =
        ascii "," ++ fieldsText doubles prettyPrint level true (rest ++ [last]) := by
      cases rest with
      | nil => simp [fieldsText, separator]
      | cons other rest => simp [fieldsText, separator]
    obtain ⟨event, hvalue, hparse⟩ := parse_field hlength
      (hfields field List.mem_cons_self)
      ((endsNumber_comma (fieldsText doubles prettyPrint level true (rest ++ [last]) ++
        behind)).complete field.2) prettyPrint (all_isspace_lineBreak prettyPrint level)
      (fuel + rest.length + 1)
    refine ⟨(some field.1.bytes, event) :: events, List.Forall₂.cons ⟨rfl, hvalue⟩ hevents, ?_⟩
    have htext : fieldsText doubles prettyPrint level true (field :: rest ++ [last]) ++ behind =
        lineBreak prettyPrint level ++ (quoted field.1.bytes ++ (colon prettyPrint ++
          (field.2.text doubles ++ (ascii "," ++
            (fieldsText doubles prettyPrint level true (rest ++ [last]) ++ behind))))) := by
      rw [List.cons_append, fieldsText, hcontinue]
      simp [separator]
    rw [htext, List.length_cons]
    refine ((congrArg (fun parsed => parsed.1.map Fired.pair) hparse).trans
      (behindComma_single _ _ _)).trans ?_
    rw [List.cons_append, ← hpairs]
    unfold behindComma
    simp only [skipComma_comma]
    rfl

/-- A document that starts like an object of the fields. -/
theorem parseDocument_fields (fields : List (Entry δ)) {last : Entry δ} {behind : Bytes}
    (hbehind : last.2.Complete behind)
    (hfields : ∀ field ∈ fields ++ [last], Entry.Readable doubles buffers field) (prettyPrint : Bool) :
    ∃ fuel events, List.Forall₂ ReadField (fields ++ [last]) events ∧
      (parseDocument doubles buffers none (ascii "\x7b" ++
          (fieldsText doubles prettyPrint 1 true (fields ++ [last]) ++ behind))).1.map Fired.pair =
        (none, .beginObject) :: (events ++ (behindComma
          (([], .ok (behind, ())) : List (Fired δ) × _)
            (parseObject doubles buffers Prod.mk (fuel + 1))).1.map Fired.pair) := by
  let text : Bytes := fieldsText doubles prettyPrint 1 true (fields ++ [last]) ++ behind
  let fuel : Nat := decodeFuel (ascii "\x7b" ++ text).length
  obtain ⟨events, hevents, hpairs⟩ :=
    parse_fields hlength fields hbehind hfields prettyPrint 1 fuel
  refine ⟨fuel, events, hevents, ?_⟩
  have hparse : parseDocument doubles buffers none (ascii "\x7b" ++ text) =
      parseElement doubles buffers Prod.mk (fuel + fields.length + 2 + 1) none
        (ascii "\x7b" ++ text) () :=
    (parseElement_of_le doubles buffers Prod.mk (by omega)
      (fueled_parseDocument doubles buffers none (ascii "\x7b" ++ text))).symm
  have hskip : skipWhitespace (ascii "\x7b" ++ text) = '\x7b'.toUInt8 :: text :=
    skipWhitespace_cons (by decide) text
  change (parseDocument doubles buffers none (ascii "\x7b" ++ text)).1.map Fired.pair = _
  rw [hparse, parseElement_succ, hskip]
  dsimp only
  rw [if_neg (by decide), if_pos rfl, List.map_cons]
  exact congrArg (_ :: ·) hpairs

/-- An object is read to its end. -/
theorem parseDocument_object (fields : List (Entry δ)) (last : Entry δ)
    (hfields : ∀ field ∈ fields ++ [last], Entry.Readable doubles buffers field) (prettyPrint : Bool) :
    ∃ events, List.Forall₂ ReadField (fields ++ [last]) events ∧
      (parseDocument doubles buffers none
          (objectText doubles prettyPrint (fields ++ [last]))).1.map Fired.pair =
        (none, .beginObject) :: (events ++ [(none, .endContainer)]) := by
  have hwhite := all_isspace_lineBreak (prettyPrint && !(fields ++ [last]).isEmpty) 0
  have hbrace := endsNumber_end hwhite (by decide : isFPChar '\x7d'.toUInt8 = false) []
  obtain ⟨fuel, events, hevents, hpairs⟩ :=
    parseDocument_fields hlength fields (hbrace.complete last.2) hfields prettyPrint
  refine ⟨events, hevents, ?_⟩
  have htext : objectText doubles prettyPrint (fields ++ [last]) = ascii "\x7b" ++
      (fieldsText doubles prettyPrint 1 true (fields ++ [last]) ++
        (lineBreak (prettyPrint && !(fields ++ [last]).isEmpty) 0 ++ ['\x7d'.toUInt8])) := by
    rw [objectText]
    simp only [List.append_assoc]
    rfl
  have hcomma := skipComma_end hwhite (by decide : isspace '\x7d'.toUInt8 = false)
    (by decide) []
  rw [htext, hpairs]
  unfold behindComma
  simp only [hcomma]
  rw [parseObject_succ, skipWhitespace_cons (by decide) []]
  rfl

/-- How much of an object must be there for the last field to be read. -/
def fieldEnd (doubles : Doubles δ) (prettyPrint : Bool) (fields : List (Entry δ))
    (last : Entry δ) : Nat :=
  (ascii "\x7b" ++ fieldsText doubles prettyPrint 1 true (fields ++ [last])).length +
    match last.2 with
    | .boolean _ => 0
    | _ => 1

omit hlength in
theorem exists_field {fields : List (Entry δ)} {events : List (Option Bytes × Event δ)}
    (h : List.Forall₂ ReadField fields events) {pair : Option Bytes × Event δ}
    (hpair : pair ∈ events) : ∃ field ∈ fields, ReadField field pair := by
  induction h with
  | nil => cases hpair
  | cons hread _ ih =>
    rcases List.mem_cons.mp hpair with rfl | hpair
    · exact ⟨_, List.mem_cons_self, hread⟩
    · obtain ⟨field, hfield, hread'⟩ := ih hpair
      exact ⟨field, List.mem_cons_of_mem _ hfield, hread'⟩

omit hlength in
theorem between_prefix {α : Type} {head : α} {start later whole first second : List α}
    (hstart : head :: (start ++ later) <+: whole) (hwhole : whole <+: head :: (first ++ second))
    (hlength : start.length = first.length) :
    ∃ extra, whole = head :: (start ++ extra) ∧ extra <+: second := by
  obtain ⟨behind, rfl⟩ := hstart
  obtain ⟨missing, hmissing⟩ := hwhole
  rw [List.cons_append, List.cons_append, List.cons.injEq] at hmissing
  simp only [List.append_assoc] at hmissing
  obtain ⟨-, hsecond⟩ := List.append_inj hmissing.2 hlength
  refine ⟨later ++ behind, by simp, missing, ?_⟩
  rw [List.append_assoc]
  exact hsecond

omit hlength in
theorem forall₂_append (first second : List (Entry δ))
    {events : List (Option Bytes × Event δ)}
    (h : List.Forall₂ ReadField (first ++ second) events) :
    ∃ events₁ events₂, events = events₁ ++ events₂ ∧ List.Forall₂ ReadField first events₁ ∧
      List.Forall₂ ReadField second events₂ := by
  refine ⟨events.take first.length, events.drop first.length,
    (List.take_append_drop _ _).symm, ?_, ?_⟩
  · exact (List.forall₂_take_append events first second h.flip).flip
  · exact (List.forall₂_drop_append events first second h.flip).flip

/-- Of an object that is cut, the fields up to the cut are read, and perhaps some of the
others. -/
theorem parseDocument_take (fields others : List (Entry δ)) (last : Entry δ)
    (hreadable : ∀ field ∈ fields ++ last :: others, Entry.Readable doubles buffers field)
    (prettyPrint : Bool)
    {length : Nat} (hcut : fieldEnd doubles prettyPrint fields last ≤ length) :
    ∃ events extra, List.Forall₂ ReadField (fields ++ [last]) events ∧
      (∀ pair ∈ extra, pair = (none, .endContainer) ∨ ∃ field ∈ others, ReadField field pair) ∧
      (parseDocument doubles buffers none
          ((objectText doubles prettyPrint (fields ++ last :: others)).take length)).1.map
            Fired.pair = (none, .beginObject) :: (events ++ extra) := by
  let text : Bytes := objectText doubles prettyPrint (fields ++ last :: others)
  let start : Bytes := ascii "\x7b" ++ fieldsText doubles prettyPrint 1 true (fields ++ [last])
  -- Behind the field there is a comma, or else the end of the object.
  obtain ⟨after, htext, hafter⟩ : ∃ after, text = start ++ after ∧ EndsNumber after := by
    refine ⟨fieldsText doubles prettyPrint 1 false others ++
      (lineBreak (prettyPrint && !(fields ++ last :: others).isEmpty) 0 ++
        ['\x7d'.toUInt8]), ?_, ?_⟩
    · have hsplit : fields ++ last :: others = (fields ++ [last]) ++ others := by simp
      have hfirst : (true && (fields ++ [last]).isEmpty) = false := by simp
      change objectText doubles prettyPrint (fields ++ last :: others) = _
      rw [objectText, hsplit, fieldsText_append, hfirst]
      simp only [List.append_assoc]
      change _ = ascii "\x7b" ++ fieldsText doubles prettyPrint 1 true (fields ++ [last]) ++ _
      rw [List.append_assoc]
      rfl
    · cases others with
      | nil => exact endsNumber_end (all_isspace_lineBreak _ 0) (by decide) []
      | cons other others =>
        rw [fieldsText]
        simp only [separator, Bool.false_eq_true, if_false, List.append_assoc]
        exact endsNumber_comma _
  obtain ⟨d, more, hd, hend⟩ := hafter
  have hhead : ∃ behind rest, after = behind ++ rest ∧ last.2.Complete behind ∧
      (start ++ behind).length = fieldEnd doubles prettyPrint fields last := by
    unfold fieldEnd
    cases last.2 with
    | boolean value => exact ⟨[], after, rfl, trivial, congrArg List.length (List.append_nil _)⟩
    | integer value => exact ⟨[d], more, hd, ⟨d, [], rfl, hend⟩, List.length_append⟩
    | floatingPoint value => exact ⟨[d], more, hd, ⟨d, [], rfl, hend⟩, List.length_append⟩
  obtain ⟨behind, rest, hbehind, hcomplete, hheadLength⟩ := hhead
  have htake : text.take length = (start ++ behind) ++
      rest.take (length - (start ++ behind).length) := by
    rw [htext, hbehind, ← List.append_assoc, List.take_append, List.take_of_length_le]
    rw [hheadLength]
    exact hcut
  -- What is read of the cut object lies between what is read of its start and of all of it.
  obtain ⟨fuel, events, hevents, hstart⟩ := parseDocument_fields hlength fields hcomplete
    (fun field hfield => hreadable field (by
      rw [List.mem_append, List.mem_singleton] at hfield
      rw [List.mem_append, List.mem_cons]
      tauto)) prettyPrint
  obtain ⟨init, final, hfields⟩ : ∃ init final, fields ++ last :: others = init ++ [final] :=
    ⟨_, _, (List.dropLast_append_getLast (by simp)).symm⟩
  obtain ⟨all, hall, hwhole⟩ := parseDocument_object hlength init final
    (by rwa [← hfields]) prettyPrint
  rw [← hfields] at hall hwhole
  obtain ⟨first, second, hall', hfirst, hsecond⟩ := forall₂_append (fields ++ [last])
    others (by rwa [List.append_assoc])
  have hfromStart := (parseDocument_cut doubles buffers none (start ++ behind)
    (rest.take (length - (start ++ behind).length))).first
  have hfromCut := (parseDocument_cut doubles buffers none (text.take length)
    (text.drop length)).first
  rw [← htake, List.append_assoc, hstart] at hfromStart
  rw [List.take_append_drop, hwhole, hall', List.append_assoc] at hfromCut
  obtain ⟨extra, hextra, hinitial⟩ := between_prefix hfromStart hfromCut
    (hevents.length_eq.symm.trans hfirst.length_eq)
  refine ⟨events, extra, hevents, fun pair hpair => ?_, hextra⟩
  rcases List.mem_append.mp (hinitial.subset hpair) with hread | hclosed
  · right
    obtain ⟨field, hfield, hpair⟩ := exists_field hsecond hread
    exact ⟨field, hfield, hpair⟩
  · exact Or.inl (List.mem_singleton.mp hclosed)

omit hlength in
theorem fieldEnd_le_length (fields others : List (Entry δ)) (last : Entry δ)
    (prettyPrint : Bool) :
    fieldEnd doubles prettyPrint fields last ≤
      (objectText doubles prettyPrint (fields ++ last :: others)).length := by
  have hsplit : fields ++ last :: others = (fields ++ [last]) ++ others := by simp
  have hmore : (match last.2 with
      | .boolean _ => 0
      | _ => 1) ≤ 1 := by
    cases last.2 with
    | boolean value => exact Nat.zero_le _
    | _ => exact Nat.le_refl _
  have hbrace : (ascii "\x7d").length = 1 := by decide
  unfold fieldEnd objectText
  rw [hsplit, fieldsText_append doubles prettyPrint 1 true (fields ++ [last]) others]
  simp only [List.length_append]
  omega

/-! Lengths. -/

omit hlength in
theorem decimal_length_le {width value : Nat} (hwidth : 0 < width) (h : value < 10 ^ width) :
    (decimal value).length ≤ width := by
  rw [decimal_eq, List.length_map]
  unfold decimalDigits
  split
  · exact hwidth
  · rw [List.length_reverse, Nat.digits_length_le_iff (by decide)]
    exact h

omit hlength in
theorem scalar_text_length_le {value : Scalar δ} (hprinted : value.Printed doubles) :
    (value.text doubles).length ≤ 50 := by
  cases value with
  | integer value =>
    have hlow := value.le_toInt
    have hhigh := value.toInt_lt
    have hdecimal : (decimal value.toInt.natAbs).length ≤ 19 :=
      decimal_length_le (by decide) (by omega)
    have hminus : (ascii "-").length = 1 := by decide
    change (signedDecimal value.toInt).length ≤ 50
    unfold signedDecimal
    split
    · rw [List.length_append]
      omega
    · omega
  | boolean value =>
    have hfalse : (ascii "false").length ≤ 50 := by decide
    have htrue : (ascii "true").length ≤ 50 := by decide
    cases value with
    | false => exact hfalse
    | true => exact htrue
  | floatingPoint value =>
    have hnull : (ascii "null").length ≤ 50 := by decide
    change (if doubles.isnan value then ascii "null" else doubles.snprintf value).length ≤ 50
    cases hnan : doubles.isnan value with
    | true => exact hnull
    | false =>
      obtain ⟨c, more, -, -, -, hshort⟩ := hprinted hnan
      exact hshort.le

omit hlength in
theorem fieldsText_length_le {keyLength : Nat} {fields : List (Entry δ)}
    (hkeys : ∀ field ∈ fields, (escape field.1.bytes).length ≤ keyLength)
    (hprinted : ∀ field ∈ fields, field.2.Printed doubles) (prettyPrint first : Bool) :
    (fieldsText doubles prettyPrint 1 first fields).length ≤
      fields.length * (keyLength + 60) := by
  induction fields generalizing first with
  | nil => exact Nat.zero_le _
  | cons field rest ih =>
    obtain ⟨key, value⟩ := field
    have hkey := hkeys (key, value) List.mem_cons_self
    have hrest := ih (fun other hother => hkeys other (List.mem_cons_of_mem _ hother))
      (fun other hother => hprinted other (List.mem_cons_of_mem _ hother)) false
    have hvalue : (value.text doubles).length ≤ 50 :=
      scalar_text_length_le (hprinted (key, value) List.mem_cons_self)
    have hseparators : ∀ prettyPrint first, (separator prettyPrint 1 first).length ≤ 6 := by
      decide
    have hcolons : ∀ prettyPrint, (colon prettyPrint).length ≤ 2 := by decide
    have hseparator := hseparators prettyPrint first
    have hcolon := hcolons prettyPrint
    have hquote : (ascii "\"").length = 1 := by decide
    unfold fieldsText quoted
    simp only [List.length_append, List.length_cons] at hkey ⊢
    rw [Nat.succ_mul]
    omega

end

end SentryCocoa.JSONCodec
