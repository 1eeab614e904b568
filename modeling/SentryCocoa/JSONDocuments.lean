import SentryCocoa.JSONRoundTrip
import SentryCocoa.JSONFields

/-! Documents with doubles in them. A double is printed by the C library, and what the decoder
reads of it may be an integer; behind the decoder there is a document again, which is written
and read without a further change. -/
namespace SentryCocoa.JSONCodec
open SentryCocoa.Library.Simulation

variable {ω δ : Type}

inductive Leaf (δ : Type) where
  | null
  | boolean (value : Bool)
  | integer (value : Int64)
  | uinteger (value : UInt64)
  | floatingPoint (value : δ)
  | string (value : PlainString)

inductive Document (δ : Type) where
  | leaf (value : Leaf δ)
  | array (values : List (Document δ))
  | object (entries : List (PlainString × Document δ))

namespace Leaf

def add (doubles : Doubles δ) (name : Option Bytes) : Leaf δ → Encode ω Unit
  | .null => addNullElement name
  | .boolean value => addBooleanElement name value
  | .integer value => addIntegerElement name value
  | .uinteger value => addUIntegerElement name value
  | .floatingPoint value => addFloatingPointElement doubles name value
  | .string value => addStringElement name (some value.bytes)

def text (doubles : Doubles δ) : Leaf δ → Bytes
  | .null => ascii "null"
  | .boolean value => if value then ascii "true" else ascii "false"
  | .integer value => signedDecimal value.toInt
  | .uinteger value => decimal value.toNat
  | .floatingPoint value =>
    if doubles.isnan value then ascii "null" else doubles.snprintf value
  | .string value => quoted value.bytes

def event : Leaf δ → Event δ
  | .null => .nullElement
  | .boolean value => .booleanElement value
  | .integer value => .integerElement value
  | .uinteger value => .uintegerElement value
  | .floatingPoint value => .floatingPointElement value
  | .string value => .stringElement value.bytes

/-- A double that is a number is finite, and is printed as one. -/
def Printed (doubles : Doubles δ) : Leaf δ → Prop
  | .floatingPoint value => doubles.isnan value = false → NumberText (doubles.snprintf value)
  | _ => True

def fits (stringBufferLength : Nat) : Leaf δ → Bool
  | .string value => (escape value.bytes).length < stringBufferLength
  | _ => true

end Leaf

namespace Document

mutual

def encode (doubles : Doubles δ) (name : Option Bytes) : Document δ → Encode ω Unit
  | .leaf value => value.add doubles name
  | .array values => do
    beginArray name
    encodeValues doubles values
    endContainer
  | .object entries => do
    beginObject name
    encodeEntries doubles entries
    endContainer

def encodeValues (doubles : Doubles δ) : List (Document δ) → Encode ω Unit
  | [] => pure ()
  | value :: rest => do
    value.encode doubles none
    encodeValues doubles rest

def encodeEntries (doubles : Doubles δ) : List (PlainString × Document δ) → Encode ω Unit
  | [] => pure ()
  | (key, value) :: rest => do
    value.encode doubles (some key.bytes)
    encodeEntries doubles rest

end

mutual

/-- The level is that of the container that the document stands in. -/
def text (doubles : Doubles δ) (prettyPrint : Bool) (level : Nat) : Document δ → Bytes
  | .leaf value => value.text doubles
  | .array values =>
    ascii "[" ++ valuesText doubles prettyPrint (level + 1) true values ++
      lineBreak (prettyPrint && !values.isEmpty) level ++ ascii "]"
  | .object entries =>
    ascii "\x7b" ++ entriesText doubles prettyPrint (level + 1) true entries ++
      lineBreak (prettyPrint && !entries.isEmpty) level ++ ascii "\x7d"

def valuesText (doubles : Doubles δ) (prettyPrint : Bool) (level : Nat) (first : Bool) :
    List (Document δ) → Bytes
  | [] => []
  | value :: rest =>
    separator prettyPrint level first ++ value.text doubles prettyPrint level ++
      valuesText doubles prettyPrint level false rest

def entriesText (doubles : Doubles δ) (prettyPrint : Bool) (level : Nat) (first : Bool) :
    List (PlainString × Document δ) → Bytes
  | [] => []
  | (key, value) :: rest =>
    separator prettyPrint level first ++ quoted key.bytes ++ colon prettyPrint ++
      value.text doubles prettyPrint level ++ entriesText doubles prettyPrint level false rest

end

mutual

def depth : Document δ → Nat
  | .leaf _ => 0
  | .array values => valuesDepth values + 1
  | .object entries => entriesDepth entries + 1

def valuesDepth : List (Document δ) → Nat
  | [] => 0
  | value :: rest => max value.depth (valuesDepth rest)

def entriesDepth : List (PlainString × Document δ) → Nat
  | [] => 0
  | (_, value) :: rest => max value.depth (entriesDepth rest)

end

mutual

def events (name : Option Bytes) : Document δ → List (Option Bytes × Event δ)
  | .leaf value => [(name, value.event)]
  | .array values => (name, .beginArray) :: (valuesEvents values ++ [(none, .endContainer)])
  | .object entries => (name, .beginObject) :: (entriesEvents entries ++ [(none, .endContainer)])

def valuesEvents : List (Document δ) → List (Option Bytes × Event δ)
  | [] => []
  | value :: rest => value.events none ++ valuesEvents rest

def entriesEvents : List (PlainString × Document δ) → List (Option Bytes × Event δ)
  | [] => []
  | (key, value) :: rest => value.events (some key.bytes) ++ entriesEvents rest

end

mutual

/-- The decoder has room for the names and the strings. -/
def fits (buffers : DecodeBuffers) : Document δ → Bool
  | .leaf value => value.fits buffers.stringBufferLength
  | .array values => valuesFit buffers values
  | .object entries => entriesFit buffers entries

def valuesFit (buffers : DecodeBuffers) : List (Document δ) → Bool
  | [] => true
  | value :: rest => value.fits buffers && valuesFit buffers rest

def entriesFit (buffers : DecodeBuffers) : List (PlainString × Document δ) → Bool
  | [] => true
  | (key, value) :: rest =>
    decide ((escape key.bytes).length < buffers.nameBufferLength) && value.fits buffers &&
      entriesFit buffers rest

end

mutual

/-- The property holds of every leaf. -/
def All (p : Leaf δ → Prop) : Document δ → Prop
  | .leaf value => p value
  | .array values => AllValues p values
  | .object entries => AllEntries p entries

def AllValues (p : Leaf δ → Prop) : List (Document δ) → Prop
  | [] => True
  | value :: rest => value.All p ∧ AllValues p rest

def AllEntries (p : Leaf δ → Prop) : List (PlainString × Document δ) → Prop
  | [] => True
  | (_, value) :: rest => value.All p ∧ AllEntries p rest

end

mutual

def map (f : Leaf δ → Leaf δ) : Document δ → Document δ
  | .leaf value => .leaf (f value)
  | .array values => .array (mapValues f values)
  | .object entries => .object (mapEntries f entries)

def mapValues (f : Leaf δ → Leaf δ) : List (Document δ) → List (Document δ)
  | [] => []
  | value :: rest => value.map f :: mapValues f rest

def mapEntries (f : Leaf δ → Leaf δ) :
    List (PlainString × Document δ) → List (PlainString × Document δ)
  | [] => []
  | (key, value) :: rest => (key, value.map f) :: mapEntries f rest

end

def isContainer : Document δ → Bool
  | .leaf _ => false
  | _ => true

/-! The encoder. -/

theorem leaf_add_run (doubles : Doubles δ) (name : Option Bytes) (value : Leaf δ)
    {context : EncodeContext Bytes} (hcollect : context.handler = collect)
    (h : nameFits context.isObject name = true) :
    ∃ context', value.add doubles name context = .ok () context' ∧
      Encoded (context.introduction name ++ value.text doubles) false 0 context context' := by
  cases value with
  | null => exact Encoded.value hcollect h (writes_addJSONData _)
  | boolean value => exact Encoded.value hcollect h (writes_addJSONData _)
  | integer value => exact Encoded.value hcollect h (writes_addJSONData _)
  | uinteger value => exact Encoded.value hcollect h (writes_addJSONData _)
  | string value => exact Encoded.value hcollect h (writes_addQuotedEscapedString value.plain)
  | floatingPoint value =>
    unfold Leaf.add addFloatingPointElement Leaf.text
    dsimp only
    split
    · exact Encoded.value hcollect h (writes_addJSONData _)
    · exact Encoded.value hcollect h (writes_addJSONData _)

mutual

theorem encode_run (doubles : Doubles δ) (name : Option Bytes) (document : Document δ)
    (context : EncodeContext Bytes) (hcollect : context.handler = collect)
    (h : nameFits context.isObject name = true) :
    ∃ context', document.encode doubles name context = .ok () context' ∧
      Encoded (context.introduction name ++
        document.text doubles context.prettyPrint context.containerLevel) false document.depth
        context context' := by
  cases document with
  | leaf value => exact leaf_add_run doubles name value hcollect h
  | array values =>
    obtain ⟨inner, hrun, hinner⟩ := encodeValues_run doubles values
      (context.begun false (context.introduction name ++ ascii "[")) hcollect rfl
    exact Encoded.container hcollect h hrun hinner
  | object entries =>
    obtain ⟨inner, hrun, hinner⟩ := encodeEntries_run doubles entries
      (context.begun true (context.introduction name ++ ascii "\x7b")) hcollect rfl
    exact Encoded.container hcollect h hrun hinner

theorem encodeValues_run (doubles : Doubles δ) (values : List (Document δ))
    (context : EncodeContext Bytes) (hcollect : context.handler = collect)
    {containers : List Bool} (h : context.isObject = false :: containers) :
    ∃ context', encodeValues doubles values context = .ok () context' ∧
      Encoded (valuesText doubles context.prettyPrint context.containerLevel
          context.containerFirstEntry values)
        (context.containerFirstEntry && values.isEmpty) (valuesDepth values)
        context context' := by
  cases values with
  | nil =>
    refine ⟨context, rfl, ?_⟩
    exact ⟨(List.append_nil _).symm, (Bool.and_true _).symm, rfl, rfl, rfl,
      Nat.le_max_left _ _⟩
  | cons value rest =>
    have hfits : nameFits context.isObject none = true := by
      rw [h]
      rfl
    obtain ⟨inner, hrun, hinner⟩ := encode_run doubles none value context hcollect hfits
    have hrest := encodeValues_run doubles rest inner (hinner.handler.trans hcollect)
      (hinner.isObject.trans h)
    have hnext := Encoded.next hrun hinner hrest
    rw [introduction_value h, hinner.prettyPrint, hinner.containerLevel,
      hinner.containerFirstEntry, Bool.false_and] at hnext
    rw [List.isEmpty_cons, Bool.and_false]
    exact hnext

theorem encodeEntries_run (doubles : Doubles δ) (entries : List (PlainString × Document δ))
    (context : EncodeContext Bytes) (hcollect : context.handler = collect)
    {containers : List Bool} (h : context.isObject = true :: containers) :
    ∃ context', encodeEntries doubles entries context = .ok () context' ∧
      Encoded (entriesText doubles context.prettyPrint context.containerLevel
          context.containerFirstEntry entries)
        (context.containerFirstEntry && entries.isEmpty) (entriesDepth entries)
        context context' := by
  cases entries with
  | nil =>
    refine ⟨context, rfl, ?_⟩
    exact ⟨(List.append_nil _).symm, (Bool.and_true _).symm, rfl, rfl, rfl,
      Nat.le_max_left _ _⟩
  | cons entry rest =>
    have hfits : nameFits context.isObject (some entry.1.bytes) = true := by
      rw [h]
      exact entry.1.plain
    obtain ⟨inner, hrun, hinner⟩ :=
      encode_run doubles (some entry.1.bytes) entry.2 context hcollect hfits
    have hrest := encodeEntries_run doubles rest inner (hinner.handler.trans hcollect)
      (hinner.isObject.trans h)
    have hnext := Encoded.next hrun hinner hrest
    rw [introduction_entry h, hinner.prettyPrint, hinner.containerLevel,
      hinner.containerFirstEntry, Bool.false_and] at hnext
    rw [List.isEmpty_cons, Bool.and_false]
    exact hnext

end

end Document

/-! What is read of a number. -/

theorem scanInteger_before (accum : Nat) (body : Bytes) {d : UInt8} (hd : isdigit d = false)
    (rest : Bytes) :
    scanInteger accum (body ++ d :: rest) =
      ((scanInteger accum body).1, (scanInteger accum body).2.1,
        (scanInteger accum body).2.2 ++ d :: rest) := by
  fun_induction scanInteger accum body with
  | case1 accum =>
    rw [List.nil_append, scanInteger, hd]
    rfl
  | case2 accum c body hdigit hlarge =>
    rw [List.cons_append, scanInteger, if_pos hdigit, if_pos hlarge]
  | case3 accum c body hdigit hlarge next hover =>
    rw [List.cons_append, scanInteger, if_pos hdigit, if_neg hlarge]
    exact if_pos hover
  | case4 accum c body hdigit hlarge next hover ih =>
    rw [List.cons_append, scanInteger, if_pos hdigit, if_neg hlarge]
    exact (if_neg hover).trans ih
  | case5 accum c body hdigit =>
    rw [List.cons_append, scanInteger, if_neg hdigit]

theorem scanInteger_suffix (accum : Nat) (body : Bytes) :
    (scanInteger accum body).2.2 <:+ body := by
  fun_induction scanInteger accum body with
  | case1 => exact List.suffix_rfl
  | case2 => exact List.suffix_rfl
  | case3 => exact List.suffix_rfl
  | case4 accum c body hdigit hlarge next hover ih => exact ih.trans (List.suffix_cons _ _)
  | case5 => exact List.suffix_rfl

/-- The leaf that a number is read as, by what the conversion to an integer leaves of it. -/
def numberLeaf (doubles : Doubles δ) (negative : Bool) (body : Bytes) : Leaf δ :=
  let accum := (scanInteger 0 body).1
  let whole := (scanInteger 0 body).2.2 = [] ∧ (scanInteger 0 body).2.1 = false
  if whole ∧ (negative ∧ accum ≤ 2 ^ 63 ∨ accum ≤ 2 ^ 63 - 1) then
    .integer (Int64.ofInt (if negative then -accum else accum))
  else if whole ∧ ¬negative then .uinteger (UInt64.ofNat accum)
  else
    .floatingPoint (if negative then doubles.negate (doubles.sscanf body)
      else doubles.sscanf body)

def readNumber (doubles : Doubles δ) : Bytes → Leaf δ
  | [] => .null
  | c :: more =>
    if c = '-'.toUInt8 then numberLeaf doubles true more
    else numberLeaf doubles false (c :: more)

/-- What the decoder reads of the text of a leaf. -/
def Leaf.readBack (doubles : Doubles δ) : Leaf δ → Leaf δ
  | .uinteger value =>
    if value.toNat ≤ 2 ^ 63 - 1 then .integer (Int64.ofInt value.toNat) else .uinteger value
  | .floatingPoint value =>
    if doubles.isnan value then .null else readNumber doubles (doubles.snprintf value)
  | value => value

theorem decodeNumber_eq (doubles : Doubles δ) {length : Nat} (negative : Bool) {body : Bytes}
    (hbody : body.all isFPChar = true) (hlength : body.length < length) {d : UInt8}
    (hd : isFPChar d = false) (rest : Bytes) :
    decodeNumber doubles length negative (body ++ d :: rest) =
      .ok ((numberLeaf doubles negative body).event, d :: rest) := by
  have hdigit := not_isdigit_of_not_isFPChar hd
  have hleft : (scanInteger 0 body).2.2.all isFPChar = true := by
    rw [List.all_eq_true] at hbody ⊢
    exact fun c hc => hbody c ((scanInteger_suffix 0 body).subset hc)
  have hdrop : ((scanInteger 0 body).2.2 ++ d :: rest).dropWhile isFPChar = d :: rest := by
    rw [List.dropWhile_append_of_pos (List.all_eq_true.mp hleft), List.dropWhile_cons_of_neg]
    rw [hd]
    exact Bool.false_ne_true
  have hlen : (body ++ d :: rest).length - (d :: rest).length = body.length := by
    rw [List.length_append]
    omega
  unfold decodeNumber numberLeaf
  rw [scanInteger_before 0 body hdigit rest]
  generalize scanInteger 0 body = scanned at *
  obtain ⟨accum, isOverflow, left⟩ := scanned
  dsimp only at hleft hdrop ⊢
  cases left with
  | nil =>
    rw [List.nil_append] at hdrop ⊢
    dsimp only
    rw [hdrop]
    dsimp only
    rw [hlen, List.take_left, if_neg (Nat.not_le.mpr hlength), hd]
    cases isOverflow with
    | true => simp [Leaf.event, pure, Except.pure]
    | false =>
      cases negative with
      | false =>
        by_cases hfits : accum ≤ 9223372036854775807
        · simp [hfits, Leaf.event, pure, Except.pure]
        · simp [hfits, Leaf.event, pure, Except.pure]
      | true =>
        by_cases hfits : accum ≤ 9223372036854775808
        · simp [hfits, Leaf.event, pure, Except.pure]
        · have hlarge : ¬accum ≤ 9223372036854775807 := by omega
          simp [hfits, hlarge, Leaf.event, pure, Except.pure]
  | cons c left =>
    rw [List.all_cons, Bool.and_eq_true] at hleft
    rw [List.cons_append] at hdrop ⊢
    dsimp only
    rw [if_neg (fun h => h.1 hleft.1), if_neg (fun h => h.1 hleft.1), hdrop]
    dsimp only
    rw [hlen, List.take_left, if_neg (Nat.not_le.mpr hlength)]
    simp [Leaf.event, pure, Except.pure]

theorem readsScalar_numberText (doubles : Doubles δ) {length : Nat} (hlength : 50 ≤ length)
    {text : Bytes} (h : NumberText text) {behind : Bytes} (hbehind : EndsNumber behind) :
    ∃ c more, ReadsScalar doubles length text behind c more (readNumber doubles text).event := by
  obtain ⟨c, more, hdigit, hmore, htext, hshort⟩ := h
  obtain ⟨d, rest, rfl, hd⟩ := hbehind
  obtain ⟨hspace, harray, hend, hobject, -, -, -, -, hminus⟩ := isdigit_spec c hdigit
  have hbody : (c :: more).all isFPChar = true := by
    rw [List.all_cons, hmore, Bool.and_true, isFPChar, hdigit, Bool.true_or]
  rcases htext with rfl | rfl
  · refine ⟨c, more, rfl, ⟨hspace, hend⟩, harray, hobject, ?_⟩
    rw [decodeScalar_digit doubles length hdigit, readNumber, if_neg hminus]
    exact decodeNumber_eq doubles false hbody (hshort.trans_le hlength) hd rest
  · rw [List.length_append] at hshort
    refine ⟨'-'.toUInt8, c :: more, rfl, ⟨by decide, by decide⟩, by decide, by decide, ?_⟩
    refine (decodeScalar_minus doubles length hdigit (more ++ d :: rest)).trans ?_
    exact decodeNumber_eq doubles true hbody (by omega) hd rest

/-- A leaf is read at once, whatever stands behind it. -/
theorem readsScalar_leaf (doubles : Doubles δ) {length : Nat} (hlength : 50 ≤ length)
    {value : Leaf δ} (hprinted : value.Printed doubles) (hfits : value.fits length = true)
    {behind : Bytes} (hbehind : EndsNumber behind) :
    ∃ c more, ReadsScalar doubles length (value.text doubles) behind c more
      (value.readBack doubles).event := by
  obtain ⟨hfalse, htrue, hnull⟩ := decodeScalar_literal doubles length behind
  have hliteral : ∃ c more, ReadsScalar doubles length (ascii "null") behind c more
      (.nullElement : Event δ) :=
    ⟨_, _, show ascii "null" = _ by decide, ⟨by decide, by decide⟩, by decide, by decide, hnull⟩
  cases value with
  | null => exact hliteral
  | boolean value =>
    cases value with
    | false =>
      exact ⟨_, _, show ascii "false" = _ by decide, ⟨by decide, by decide⟩, by decide,
        by decide, hfalse⟩
    | true =>
      exact ⟨_, _, show ascii "true" = _ by decide, ⟨by decide, by decide⟩, by decide,
        by decide, htrue⟩
  | integer value =>
    obtain ⟨d, rest, rfl, hd⟩ := hbehind
    exact readsScalar_integer doubles length value hd rest
  | uinteger value =>
    obtain ⟨d, rest, rfl, hd⟩ := hbehind
    obtain ⟨c, more, hreads⟩ := readsScalar_uinteger doubles length value hd rest
    have hevent : ((Leaf.uinteger value).readBack doubles).event = uintegerEvent value := by
      unfold Leaf.readBack uintegerEvent
      dsimp only
      split
      · rfl
      · rfl
    rw [hevent]
    exact ⟨c, more, hreads⟩
  | string value => exact readsScalar_string doubles (of_decide_eq_true hfits) behind
  | floatingPoint value =>
    unfold Leaf.text Leaf.readBack
    dsimp only
    cases hnan : doubles.isnan value with
    | true => exact hliteral
    | false => exact readsScalar_numberText doubles hlength (hprinted hnan) hbehind

namespace Document

/-! The decoder. -/

def readBack (doubles : Doubles δ) (document : Document δ) : Document δ :=
  document.map (Leaf.readBack doubles)

theorem starts_leaf (doubles : Doubles δ) {value : Leaf δ} (hprinted : value.Printed doubles) :
    ∃ c more, value.text doubles = c :: more ∧ Starts c := by
  have hstring : value.fits ((value.text doubles).length + 50) = true := by
    cases value with
    | string value =>
      apply decide_eq_true
      change (escape value.bytes).length < (quoted value.bytes).length + 50
      unfold quoted
      simp only [List.length_append]
      omega
    | _ => rfl
  obtain ⟨c, more, hreads⟩ := readsScalar_leaf doubles (Nat.le_add_left 50 _) hprinted hstring
    (endsNumber_comma [])
  exact ⟨c, more, hreads.text, hreads.starts⟩

theorem text_starts (doubles : Doubles δ) {document : Document δ}
    (hprinted : document.All (Leaf.Printed doubles)) (prettyPrint : Bool) (level : Nat) :
    ∃ c more, document.text doubles prettyPrint level = c :: more ∧ Starts c := by
  cases document with
  | leaf value => exact starts_leaf doubles hprinted
  | array values => exact ⟨'['.toUInt8, _, rfl, ⟨by decide, by decide⟩⟩
  | object entries => exact ⟨'\x7b'.toUInt8, _, rfl, ⟨by decide, by decide⟩⟩

theorem continues_values (doubles : Doubles δ) (prettyPrint : Bool) (level : Nat)
    (values : List (Document δ)) :
    Continues (valuesText doubles prettyPrint level true values)
      (valuesText doubles prettyPrint level false values) := by
  cases values with
  | nil => exact Or.inl ⟨rfl, rfl⟩
  | cons value rest =>
    right
    simp [valuesText, separator]

theorem continues_entries (doubles : Doubles δ) (prettyPrint : Bool) (level : Nat)
    (entries : List (PlainString × Document δ)) :
    Continues (entriesText doubles prettyPrint level true entries)
      (entriesText doubles prettyPrint level false entries) := by
  cases entries with
  | nil => exact Or.inl ⟨rfl, rfl⟩
  | cons entry rest =>
    right
    simp [entriesText, separator]

/-- The events are found if there is room for the names and the strings, and otherwise there is
an error. -/
structure Reads (fits : Bool) (result : List (Fired δ) × Except JSONError (Bytes × Unit))
    (events : List (Option Bytes × Event δ)) (rest : Bytes) : Prop where
  readTo : fits = true → ReadTo result events rest
  tooLong : fits = false → ∃ e, result.2 = .error e

theorem decodeString_tooLong {string : Bytes} (h : escapable string = true)
    {dstBufferLength : Nat} (hlength : ¬(escape string).length < dstBufferLength)
    (rest : Bytes) :
    decodeString dstBufferLength (quoted string ++ rest) = .error .dataTooLong := by
  have hquoted : quoted string ++ rest =
      '"'.toUInt8 :: (escape string ++ '"'.toUInt8 :: rest) := by
    unfold quoted
    simp [ascii]
  rw [hquoted, decodeString, if_neg (by simp), List.tail_cons, scanString_escape h]
  dsimp only
  rw [if_pos (by omega)]
  rfl

theorem parse_leaf (doubles : Doubles δ) {buffers : DecodeBuffers}
    (hlength : 50 ≤ buffers.stringBufferLength) {value : Leaf δ}
    (hprinted : value.Printed doubles) (name : Option Bytes) {rest : Bytes}
    (hrest : EndsNumber rest) (fuel : Nat) :
    Reads (value.fits buffers.stringBufferLength)
      (parseElement doubles buffers Prod.mk (fuel + 1) name (value.text doubles ++ rest) ())
      [(name, (value.readBack doubles).event)] rest := by
  constructor
  · intro hfits
    obtain ⟨c, more, hreads⟩ := readsScalar_leaf doubles hlength hprinted hfits hrest
    have hskip : skipWhitespace (value.text doubles ++ rest) = c :: (more ++ rest) := by
      rw [hreads.text]
      exact skipWhitespace_cons hreads.starts.space _
    rw [parseElement_succ, hskip]
    dsimp only
    rw [if_neg hreads.beginArray, if_neg hreads.beginObject, hreads.decode]
    exact ⟨rfl, rfl⟩
  · intro hfits
    cases value with
    | string value =>
      have hstring := decodeString_tooLong value.plain (of_decide_eq_false hfits) rest
      have hskip : skipWhitespace (quoted value.bytes ++ rest) =
          '"'.toUInt8 :: (escape value.bytes ++ ascii "\"" ++ rest) :=
        skipWhitespace_cons (by decide) _
      have hscalar : decodeScalar doubles buffers.stringBufferLength '"'.toUInt8
          (escape value.bytes ++ ascii "\"" ++ rest) = .error .dataTooLong := by
        unfold decodeScalar
        rw [if_pos rfl]
        change (decodeString buffers.stringBufferLength (quoted value.bytes ++ rest) >>= _) = _
        rw [hstring]
        rfl
      refine ⟨.dataTooLong, ?_⟩
      change (parseElement doubles buffers Prod.mk (fuel + 1) name
        (quoted value.bytes ++ rest) ()).2 = _
      rw [parseElement_succ, hskip]
      dsimp only
      rw [if_neg (by decide), if_neg (by decide), hscalar]
    | _ => cases hfits

section

variable (doubles : Doubles δ) (buffers : DecodeBuffers)
mutual

theorem parse_document (hbuffer : 50 ≤ buffers.stringBufferLength) (document : Document δ)
    (hprinted : document.All (Leaf.Printed doubles))
    (name : Option Bytes) (prettyPrint : Bool) (level : Nat) (rest : Bytes)
    (hrest : document.isContainer = true ∨ EndsNumber rest) (fuel : Nat)
    (hfuel : 2 * (document.text doubles prettyPrint level).length < fuel) :
    Reads (document.fits buffers) (parseElement doubles buffers Prod.mk fuel name
      (document.text doubles prettyPrint level ++ rest) ())
      ((document.readBack doubles).events name) rest := by
  obtain ⟨fuel, rfl⟩ : ∃ n, fuel = n + 1 := ⟨fuel - 1, by omega⟩
  cases document with
  | leaf value =>
    exact parse_leaf doubles hbuffer hprinted name (hrest.resolve_left Bool.false_ne_true) fuel
  | array values =>
    have hskip : skipWhitespace ((Document.array values).text doubles prettyPrint level ++ rest) =
        '['.toUInt8 :: (valuesText doubles prettyPrint (level + 1) true values ++
          (lineBreak (prettyPrint && !values.isEmpty) level ++ ']'.toUInt8 :: rest)) := by
      rw [Document.text, List.append_assoc, List.append_assoc, List.append_assoc]
      exact skipWhitespace_cons (by decide) _
    have hvalues := parse_values hbuffer values hprinted prettyPrint (level + 1) _
      (all_isspace_lineBreak (prettyPrint && !values.isEmpty) level) rest fuel (by
        rw [Document.text] at hfuel
        simp only [List.length_append, ascii] at hfuel
        simp at hfuel ⊢
        omega)
    rw [parseElement_succ, hskip]
    dsimp only
    rw [if_pos rfl]
    constructor
    · intro hfits
      obtain ⟨hevents, hresult⟩ := hvalues.readTo hfits
      refine ⟨?_, hresult⟩
      rw [List.map_cons, hevents]
      rfl
    · exact hvalues.tooLong
  | object entries =>
    have hskip : skipWhitespace ((Document.object entries).text doubles prettyPrint level ++
        rest) = '\x7b'.toUInt8 :: (entriesText doubles prettyPrint (level + 1) true entries ++
          (lineBreak (prettyPrint && !entries.isEmpty) level ++ '\x7d'.toUInt8 :: rest)) := by
      rw [Document.text, List.append_assoc, List.append_assoc, List.append_assoc]
      exact skipWhitespace_cons (by decide) _
    have hentries := parse_entries hbuffer entries hprinted prettyPrint (level + 1) _
      (all_isspace_lineBreak (prettyPrint && !entries.isEmpty) level) rest fuel (by
        rw [Document.text] at hfuel
        simp only [List.length_append, ascii] at hfuel
        simp at hfuel ⊢
        omega)
    rw [parseElement_succ, hskip]
    dsimp only
    rw [if_neg (by decide), if_pos rfl]
    constructor
    · intro hfits
      obtain ⟨hevents, hresult⟩ := hentries.readTo hfits
      refine ⟨?_, hresult⟩
      rw [List.map_cons, hevents]
      rfl
    · exact hentries.tooLong

theorem parse_values (hbuffer : 50 ≤ buffers.stringBufferLength) (values : List (Document δ))
    (hprinted : AllValues (Leaf.Printed doubles) values) (prettyPrint : Bool) (level : Nat)
    (white : Bytes) (hwhite : white.all isspace = true) (rest : Bytes) (fuel : Nat)
    (hfuel : 2 * ((valuesText doubles prettyPrint level true values).length +
      white.length + 1) + 1 < fuel) :
    Reads (valuesFit buffers values) (parseArray doubles buffers Prod.mk fuel
      (valuesText doubles prettyPrint level true values ++ (white ++ ']'.toUInt8 :: rest)) ())
      (valuesEvents (mapValues (Leaf.readBack doubles) values) ++ [(none, .endContainer)])
      rest := by
  obtain ⟨fuel, rfl⟩ : ∃ n, fuel = n + 1 := ⟨fuel - 1, by omega⟩
  cases values with
  | nil =>
    have hskip : skipWhitespace (valuesText doubles prettyPrint level true [] ++
        (white ++ ']'.toUInt8 :: rest)) = ']'.toUInt8 :: rest :=
      skipWhitespace_append hwhite (by decide) rest
    rw [parseArray_succ, hskip]
    exact ⟨fun _ => ⟨rfl, rfl⟩, fun hfits => (nomatch hfits)⟩
  | cons value more =>
    have htext : valuesText doubles prettyPrint level true (value :: more) =
        lineBreak prettyPrint level ++ (value.text doubles prettyPrint level ++
          valuesText doubles prettyPrint level false more) := by
      rw [valuesText, List.append_assoc]
      rfl
    rw [htext, List.length_append, List.length_append] at hfuel
    obtain ⟨hends, white', hwhite', hlength, hcomma⟩ :=
      (continues_values doubles prettyPrint level more).skip hwhite (c := ']'.toUInt8)
        (by decide) (by decide) (by decide) rest
    obtain ⟨c, tail, hstart, hstarts⟩ := text_starts doubles hprinted.1 prettyPrint level
    have hpositive : 0 < (value.text doubles prettyPrint level).length := by
      rw [hstart]
      exact Nat.succ_pos _
    have hvalue := parse_document hbuffer value hprinted.1 none prettyPrint level _ (Or.inr hends) fuel
      (by omega)
    have hmore := parse_values hbuffer more hprinted.2 prettyPrint level white' hwhite' rest fuel
      (by omega)
    have hskip : skipWhitespace (valuesText doubles prettyPrint level true (value :: more) ++
        (white ++ ']'.toUInt8 :: rest)) = value.text doubles prettyPrint level ++
          (valuesText doubles prettyPrint level false more ++
            (white ++ ']'.toUInt8 :: rest)) := by
      rw [htext, List.append_assoc, List.append_assoc, hstart]
      exact skipWhitespace_append (all_isspace_lineBreak _ _) hstarts.space _
    rw [parseArray_succ, hskip]
    rw [hstart, List.cons_append] at hvalue ⊢
    dsimp only
    rw [if_neg hstarts.endArray, valuesFit]
    cases hparse : parseElement doubles buffers Prod.mk fuel none (c :: (tail ++
        (valuesText doubles prettyPrint level false more ++
          (white ++ ']'.toUInt8 :: rest)))) () with
    | mk fired result =>
      rw [hparse] at hvalue
      cases hfits : value.fits buffers with
      | false =>
        obtain ⟨e, he⟩ := hvalue.tooLong hfits
        dsimp only at he
        subst he
        exact ⟨fun hall => (nomatch hall), fun _ => ⟨e, rfl⟩⟩
      | true =>
        obtain ⟨hevents, hresult⟩ := hvalue.readTo hfits
        dsimp only at hevents hresult
        subst hresult
        dsimp only
        rw [hcomma, Bool.true_and]
        constructor
        · intro hmoreFits
          obtain ⟨hmoreEvents, hmoreResult⟩ := hmore.readTo hmoreFits
          refine ⟨?_, hmoreResult⟩
          rw [List.map_append, hevents, hmoreEvents, mapValues, valuesEvents,
            List.append_assoc]
          rfl
        · exact hmore.tooLong

theorem parse_entries (hbuffer : 50 ≤ buffers.stringBufferLength)
    (entries : List (PlainString × Document δ))
    (hprinted : AllEntries (Leaf.Printed doubles) entries) (prettyPrint : Bool) (level : Nat)
    (white : Bytes) (hwhite : white.all isspace = true) (rest : Bytes) (fuel : Nat)
    (hfuel : 2 * ((entriesText doubles prettyPrint level true entries).length +
      white.length + 1) + 1 < fuel) :
    Reads (entriesFit buffers entries) (parseObject doubles buffers Prod.mk fuel
      (entriesText doubles prettyPrint level true entries ++
        (white ++ '\x7d'.toUInt8 :: rest)) ())
      (entriesEvents (mapEntries (Leaf.readBack doubles) entries) ++ [(none, .endContainer)])
      rest := by
  obtain ⟨fuel, rfl⟩ : ∃ n, fuel = n + 1 := ⟨fuel - 1, by omega⟩
  cases entries with
  | nil =>
    have hskip : skipWhitespace (entriesText doubles prettyPrint level true [] ++
        (white ++ '\x7d'.toUInt8 :: rest)) = '\x7d'.toUInt8 :: rest :=
      skipWhitespace_append hwhite (by decide) rest
    rw [parseObject_succ, hskip]
    exact ⟨fun _ => ⟨rfl, rfl⟩, fun hfits => (nomatch hfits)⟩
  | cons entry more =>
    obtain ⟨key, value⟩ := entry
    have htext : entriesText doubles prettyPrint level true ((key, value) :: more) =
        lineBreak prettyPrint level ++ (quoted key.bytes ++ (colon prettyPrint ++
          (value.text doubles prettyPrint level ++
            entriesText doubles prettyPrint level false more))) := by
      rw [entriesText, List.append_assoc, List.append_assoc, List.append_assoc]
      rfl
    rw [htext] at hfuel
    simp only [List.length_append] at hfuel
    obtain ⟨hends, white', hwhite', hlength, hcomma⟩ :=
      (continues_entries doubles prettyPrint level more).skip hwhite (c := '\x7d'.toUInt8)
        (by decide) (by decide) (by decide) rest
    obtain ⟨c, tail, hstart, hstarts⟩ := text_starts doubles hprinted.1 prettyPrint level
    have hpositive : 0 < (value.text doubles prettyPrint level).length := by
      rw [hstart]
      exact Nat.succ_pos _
    have hvalue := parse_document hbuffer value hprinted.1 (some key.bytes) prettyPrint level _
      (Or.inr hends) fuel (by omega)
    have hmore := parse_entries hbuffer more hprinted.2 prettyPrint level white' hwhite' rest fuel
      (by omega)
    have hskip : skipWhitespace (entriesText doubles prettyPrint level true ((key, value) ::
        more) ++ (white ++ '\x7d'.toUInt8 :: rest)) = quoted key.bytes ++ (colon prettyPrint ++
          (value.text doubles prettyPrint level ++
            (entriesText doubles prettyPrint level false more ++
              (white ++ '\x7d'.toUInt8 :: rest)))) := by
      rw [htext, List.append_assoc, List.append_assoc, List.append_assoc, List.append_assoc]
      exact skipWhitespace_append (all_isspace_lineBreak _ _) (by decide) _
    have hquote : ∀ rest, quoted key.bytes ++ rest =
        '"'.toUInt8 :: (escape key.bytes ++ ascii "\"" ++ rest) := fun rest => rfl
    rw [parseObject_succ, hskip, entriesFit]
    by_cases hkey : (escape key.bytes).length < buffers.nameBufferLength
    · have hname := decodeName_quoted key hkey prettyPrint hstarts.space hstart
        (entriesText doubles prettyPrint level false more ++ (white ++ '\x7d'.toUInt8 :: rest))
      rw [hquote] at hname ⊢
      dsimp only
      rw [if_neg (by decide), hname, decide_eq_true hkey, Bool.true_and]
      dsimp only
      cases hparse : parseElement doubles buffers Prod.mk fuel (some key.bytes)
          (value.text doubles prettyPrint level ++
            (entriesText doubles prettyPrint level false more ++
              (white ++ '\x7d'.toUInt8 :: rest))) () with
      | mk fired result =>
        rw [hparse] at hvalue
        cases hfits : value.fits buffers with
        | false =>
          obtain ⟨e, he⟩ := hvalue.tooLong hfits
          dsimp only at he
          subst he
          exact ⟨fun hall => (nomatch hall), fun _ => ⟨e, rfl⟩⟩
        | true =>
          obtain ⟨hevents, hresult⟩ := hvalue.readTo hfits
          dsimp only at hevents hresult
          subst hresult
          dsimp only
          rw [hcomma, Bool.true_and]
          constructor
          · intro hmoreFits
            obtain ⟨hmoreEvents, hmoreResult⟩ := hmore.readTo hmoreFits
            refine ⟨?_, hmoreResult⟩
            rw [List.map_append, hevents, hmoreEvents, mapEntries, entriesEvents,
              List.append_assoc]
            rfl
          · exact hmore.tooLong
    · have hname : decodeName buffers.nameBufferLength (quoted key.bytes ++ (colon prettyPrint ++
          (value.text doubles prettyPrint level ++
            (entriesText doubles prettyPrint level false more ++
              (white ++ '\x7d'.toUInt8 :: rest))))) = .error .dataTooLong := by
        unfold decodeName
        rw [decodeString_tooLong key.plain hkey]
        rfl
      rw [hquote] at hname ⊢
      dsimp only
      rw [if_neg (by decide), hname, decide_eq_false hkey]
      exact ⟨fun hall => (nomatch hall), fun _ => ⟨.dataTooLong, rfl⟩⟩

end

end

end Document

end SentryCocoa.JSONCodec
