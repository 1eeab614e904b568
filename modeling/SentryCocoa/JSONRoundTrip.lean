import Mathlib.Data.List.TakeWhile
import Mathlib.Data.Nat.Digits.Lemmas
import SentryCocoa.JSONDepth
import SentryCocoa.JSONTree
import SentryCocoa.Library.Unicode

/-! The decoder reads what the encoder writes. Its half of the round trip is an induction over
the tree and its text: each token is read back to its end, and the loops of the containers meet
the separators that the encoder has written. -/
namespace SentryCocoa.JSONCodec

open Library.Unicode (forall_byte)

variable {δ : Type}

/-! Bytes. -/

theorem isFPChar_of_isspace (c : UInt8) : isspace c = true → isFPChar c = false :=
  forall_byte (p := fun c => isspace c = true → isFPChar c = false) (by decide +kernel) c

theorem not_isdigit_of_not_isFPChar {c : UInt8} (h : isFPChar c = false) : isdigit c = false := by
  unfold isFPChar at h
  rw [Bool.or_eq_false_iff] at h
  exact h.1

theorem skipWhitespace_append {white : Bytes} (hwhite : white.all isspace = true) {c : UInt8}
    (hc : isspace c = false) (rest : Bytes) : skipWhitespace (white ++ c :: rest) = c :: rest := by
  unfold skipWhitespace
  rw [List.dropWhile_append_of_pos (List.all_eq_true.mp hwhite), List.dropWhile_cons_of_neg]
  rw [hc]
  exact Bool.false_ne_true

theorem skipWhitespace_cons {c : UInt8} (hc : isspace c = false) (rest : Bytes) :
    skipWhitespace (c :: rest) = c :: rest := skipWhitespace_append List.all_nil hc rest

theorem all_isspace_lineBreak (prettyPrint : Bool) (level : Nat) :
    (lineBreak prettyPrint level).all isspace = true := by
  unfold lineBreak
  split
  · rw [List.all_append, List.all_flatten]
    apply Bool.and_eq_true_iff.mpr ⟨by decide, ?_⟩
    rw [List.all_eq_true]
    intro indent hindent
    rw [List.eq_of_mem_replicate hindent]
    decide
  · rfl

/-! Strings. -/

/-- A byte is written as itself, or as a character that stands for it. -/
def escapedWell (c : UInt8) : Bool :=
  match escapeByte c with
  | none => true
  | some [a] => a == c && c != '"'.toUInt8 && c != '\\'.toUInt8 && c != 0
  | some [a, d] =>
    a == '\\'.toUInt8 && d != 'u'.toUInt8 && decide (unescapeByte d = some c) && c != 0
  | some _ => false

theorem escapedWell_all (c : UInt8) : escapedWell c = true :=
  forall_byte (p := fun c => escapedWell c = true) (by decide +kernel) c

theorem escapeByte_cases {c : UInt8} {e : Bytes} (h : escapeByte c = some e) :
    c ≠ 0 ∧ (e = [c] ∧ c ≠ '"'.toUInt8 ∧ c ≠ '\\'.toUInt8 ∨
      ∃ d, e = ['\\'.toUInt8, d] ∧ d ≠ 'u'.toUInt8 ∧ unescapeByte d = some c) := by
  have hwell := escapedWell_all c
  unfold escapedWell at hwell
  rw [h] at hwell
  match e, hwell with
  | [a], hwell =>
    simp only [Bool.and_eq_true, beq_iff_eq, bne_iff_ne] at hwell
    obtain ⟨⟨⟨rfl, hquote⟩, hescape⟩, hzero⟩ := hwell
    exact ⟨hzero, Or.inl ⟨rfl, hquote, hescape⟩⟩
  | [a, d], hwell =>
    simp only [Bool.and_eq_true, beq_iff_eq, bne_iff_ne, decide_eq_true_eq] at hwell
    obtain ⟨⟨⟨rfl, hunicode⟩, hunescape⟩, hzero⟩ := hwell
    exact ⟨hzero, Or.inr ⟨d, rfl, hunicode, hunescape⟩⟩

theorem escape_cons {c : UInt8} {e : Bytes} (h : escapeByte c = some e) (rest : Bytes) :
    escape (c :: rest) = e ++ escape rest := by
  unfold escape
  rw [List.flatMap_cons, h]
  rfl

theorem escapable_cons {c : UInt8} {rest : Bytes} (h : escapable (c :: rest) = true) :
    ∃ e, escapeByte c = some e ∧ escapable rest = true := by
  unfold escapable at h
  rw [List.all_cons, Bool.and_eq_true, Option.isSome_iff_exists] at h
  obtain ⟨⟨e, he⟩, hrest⟩ := h
  exact ⟨e, he, hrest⟩

theorem scanString_escape {string : Bytes} (h : escapable string = true) (rest : Bytes) :
    scanString (escape string ++ '"'.toUInt8 :: rest) = some (escape string, rest) := by
  induction string with
  | nil =>
    change scanString ('"'.toUInt8 :: rest) = some ([], rest)
    rw [scanString.eq_def]
    exact if_pos rfl
  | cons c string ih =>
    obtain ⟨e, he, hstring⟩ := escapable_cons h
    rw [escape_cons he]
    obtain ⟨-, ⟨rfl, hquote, hescape⟩ | ⟨d, rfl, -, -⟩⟩ := escapeByte_cases he
    · rw [List.singleton_append, List.cons_append, scanString.eq_def]
      dsimp only
      rw [if_neg hquote, if_neg hescape, ih hstring]
      rfl
    · simp only [List.cons_append, List.nil_append]
      rw [scanString.eq_def]
      dsimp only
      rw [if_neg (by decide), if_pos rfl, ih hstring]
      rfl

theorem unescape_escape {string : Bytes} (h : escapable string = true) :
    unescape (escape string) = .ok string := by
  induction string with
  | nil => rfl
  | cons c string ih =>
    obtain ⟨e, he, hstring⟩ := escapable_cons h
    rw [escape_cons he]
    obtain ⟨-, ⟨rfl, -, hescape⟩ | ⟨d, rfl, hunicode, hunescape⟩⟩ := escapeByte_cases he
    · rw [List.singleton_append, unescape.eq_def]
      dsimp only
      rw [if_pos hescape, ih hstring]
      rfl
    · rw [List.cons_append, List.cons_append, List.nil_append, unescape.eq_def]
      dsimp only
      rw [if_neg (fun hne => hne rfl), if_pos hunicode, hunescape, ih hstring]
      rfl

theorem cString_of_escapable {string : Bytes} (h : escapable string = true) :
    cString string = string := by
  unfold cString
  apply List.takeWhile_eq_self_iff.mpr
  intro c hc
  obtain ⟨e, he⟩ := Option.isSome_iff_exists.mp (List.all_eq_true.mp h c hc)
  exact decide_eq_true (escapeByte_cases he).1

theorem decodeString_quoted {string : Bytes} (h : escapable string = true)
    {dstBufferLength : Nat} (hlength : (escape string).length < dstBufferLength) (rest : Bytes) :
    decodeString dstBufferLength (quoted string ++ rest) = .ok (string, rest) := by
  have hquoted : quoted string ++ rest =
      '"'.toUInt8 :: (escape string ++ '"'.toUInt8 :: rest) := by
    unfold quoted
    simp [ascii]
  rw [hquoted, decodeString, if_neg (by simp), List.tail_cons, scanString_escape h]
  dsimp only
  rw [if_neg (by omega), unescape_escape h]
  exact congrArg (fun dst => Except.ok (dst, rest)) (cString_of_escapable h)

/-! Numbers. -/

def digitByte (digit : Nat) : UInt8 := UInt8.ofNat digit + '0'.toUInt8

theorem digitByte_spec {digit : Nat} (h : digit < 10) :
    isdigit (digitByte digit) = true ∧ (digitByte digit).toNat - '0'.toNat = digit := by
  have hall : ∀ digit < 10, isdigit (digitByte digit) = true ∧
      (digitByte digit).toNat - '0'.toNat = digit := by decide +kernel
  exact hall digit h

/-- The value of digits behind those that were read before. -/
def digitsValue (accum : Nat) (digits : List Nat) : Nat :=
  digits.foldl (fun accum digit => accum * 10 + digit) accum

theorem le_digitsValue (accum : Nat) (digits : List Nat) : accum ≤ digitsValue accum digits := by
  unfold digitsValue
  induction digits generalizing accum with
  | nil => exact Nat.le_refl _
  | cons digit rest ih =>
    rw [List.foldl_cons]
    exact (by omega : accum ≤ accum * 10 + digit).trans (ih _)

theorem scanInteger_digits {digits : List Nat} (hdigits : ∀ digit ∈ digits, digit < 10)
    (accum : Nat) {c : UInt8} (hc : isdigit c = false) (rest : Bytes)
    (hmax : digitsValue accum digits ≤ ULLONG_MAX) :
    scanInteger accum (digits.map digitByte ++ c :: rest) =
      (digitsValue accum digits, false, c :: rest) := by
  induction digits generalizing accum with
  | nil =>
    rw [List.map_nil, List.nil_append, scanInteger, if_neg]
    · rfl
    · rw [hc]
      exact Bool.false_ne_true
  | cons digit digits ih =>
    obtain ⟨hdigit, hvalue⟩ := digitByte_spec (hdigits digit List.mem_cons_self)
    have hnext : accum * 10 + digit ≤ ULLONG_MAX :=
      (le_digitsValue (accum * 10 + digit) digits).trans hmax
    rw [List.map_cons, List.cons_append, scanInteger, if_pos hdigit, if_neg (by omega)]
    dsimp only
    rw [hvalue, if_neg (by omega)]
    exact ih (fun d hd => hdigits d (List.mem_cons_of_mem _ hd)) _ hmax

/-- The digits of a number, the highest first. -/
def decimalDigits (value : Nat) : List Nat :=
  if value = 0 then [0] else (Nat.digits 10 value).reverse

theorem decimal_eq (value : Nat) : decimal value = (decimalDigits value).map digitByte := by
  unfold decimal decimalDigits
  split
  · decide
  · rfl

theorem decimalDigits_lt (value : Nat) : ∀ digit ∈ decimalDigits value, digit < 10 := by
  intro digit hdigit
  unfold decimalDigits at hdigit
  split at hdigit
  · rw [List.mem_singleton.mp hdigit]
    decide
  · exact Nat.digits_lt_base (by decide) (List.mem_reverse.mp hdigit)

theorem digitsValue_decimalDigits (value : Nat) :
    digitsValue 0 (decimalDigits value) = value := by
  unfold digitsValue decimalDigits
  split
  · rename_i hzero
    rw [hzero]
    rfl
  · rw [List.foldl_reverse]
    have hvalue := Nat.ofDigits_digits 10 value
    rw [Nat.ofDigits_eq_foldr] at hvalue
    conv_rhs => rw [← hvalue]
    congr 1
    funext digit accum
    simp only [Nat.cast_id]
    omega

theorem decimal_ne_nil (value : Nat) : decimal value ≠ [] := by
  rw [decimal_eq]
  unfold decimalDigits
  split
  · simp
  · rename_i hzero
    simpa [Nat.digits_eq_nil_iff_eq_zero] using hzero

theorem scanInteger_decimal {value : Nat} (hmax : value ≤ ULLONG_MAX) {c : UInt8}
    (hc : isFPChar c = false) (rest : Bytes) :
    scanInteger 0 (decimal value ++ c :: rest) = (value, false, c :: rest) := by
  have hvalue := digitsValue_decimalDigits value
  rw [decimal_eq, scanInteger_digits (decimalDigits_lt value) 0
    (not_isdigit_of_not_isFPChar hc) rest (by rw [hvalue]; exact hmax), hvalue]

theorem decodeNumber_integer (doubles : Doubles δ) (length : Nat) {negative : Bool} {value : Nat}
    (hfits : negative = true ∧ value ≤ 2 ^ 63 ∨ value ≤ 2 ^ 63 - 1) {c : UInt8}
    (hc : isFPChar c = false) (rest : Bytes) :
    decodeNumber doubles length negative (decimal value ++ c :: rest) =
      .ok (.integerElement (Int64.ofInt (if negative then -value else value)), c :: rest) := by
  unfold decodeNumber
  rw [scanInteger_decimal (by unfold ULLONG_MAX; omega) hc]
  dsimp only
  rw [if_pos ⟨by simp [hc], by simp, hfits⟩]
  rfl

theorem decodeNumber_uinteger (doubles : Doubles δ) (length : Nat) {value : Nat}
    (hlarge : ¬value ≤ 2 ^ 63 - 1) (hmax : value ≤ ULLONG_MAX) {c : UInt8}
    (hc : isFPChar c = false) (rest : Bytes) :
    decodeNumber doubles length false (decimal value ++ c :: rest) =
      .ok (.uintegerElement (UInt64.ofNat value), c :: rest) := by
  unfold decodeNumber
  rw [scanInteger_decimal hmax hc]
  dsimp only
  rw [if_neg (by simpa using fun _ => hlarge), if_pos ⟨by simp [hc], by simp, by simp⟩]
  rfl

/-! Trees. -/

/-- An unsigned integer comes back as a signed one where it can. -/
def uintegerEvent (value : UInt64) : Event δ :=
  if value.toNat ≤ 2 ^ 63 - 1 then .integerElement (Int64.ofInt value.toNat)
  else .uintegerElement value

mutual

def Tree.events (name : Option Bytes) : Tree → List (Option Bytes × Event δ)
  | .null => [(name, .nullElement)]
  | .boolean value => [(name, .booleanElement value)]
  | .integer value => [(name, .integerElement value)]
  | .uinteger value => [(name, uintegerEvent value)]
  | .string value => [(name, .stringElement value.bytes)]
  | .array values => (name, .beginArray) :: valuesEvents values ++ [(none, .endContainer)]
  | .object entries => (name, .beginObject) :: entriesEvents entries ++ [(none, .endContainer)]

def valuesEvents : List Tree → List (Option Bytes × Event δ)
  | [] => []
  | value :: rest => value.events none ++ valuesEvents rest

def entriesEvents : List (PlainString × Tree) → List (Option Bytes × Event δ)
  | [] => []
  | (key, value) :: rest => value.events (some key.bytes) ++ entriesEvents rest

end

def Tree.isContainer : Tree → Bool
  | .array _ => true
  | .object _ => true
  | _ => false

mutual

/-- The decoder has room for the names and the strings; it measures them as they are written. -/
def Tree.fits (buffers : DecodeBuffers) : Tree → Bool
  | .string value => (escape value.bytes).length < buffers.stringBufferLength
  | .array values => valuesFit buffers values
  | .object entries => entriesFit buffers entries
  | _ => true

def valuesFit (buffers : DecodeBuffers) : List Tree → Bool
  | [] => true
  | value :: rest => value.fits buffers && valuesFit buffers rest

def entriesFit (buffers : DecodeBuffers) : List (PlainString × Tree) → Bool
  | [] => true
  | (key, value) :: rest =>
    decide ((escape key.bytes).length < buffers.nameBufferLength) && value.fits buffers &&
      entriesFit buffers rest

end

/-- A number ends where a character follows that cannot be part of one. -/
def EndsNumber (rest : Bytes) : Prop := ∃ c more, rest = c :: more ∧ isFPChar c = false

theorem decodeLiteral_self (literal : Bytes) (event : Event δ) (rest : Bytes) :
    decodeLiteral literal event (literal ++ rest) = .ok (event, rest) := by
  unfold decodeLiteral
  rw [if_neg (by rw [List.length_append]; omega), List.take_left, if_neg (fun h => h rfl),
    List.drop_left]
  rfl

theorem decodeScalar_literal (doubles : Doubles δ) (length : Nat) (rest : Bytes) :
    decodeScalar doubles length 'f'.toUInt8 (ascii "alse" ++ rest) =
        .ok (.booleanElement false, rest) ∧
      decodeScalar doubles length 't'.toUInt8 (ascii "rue" ++ rest) =
        .ok (.booleanElement true, rest) ∧
      decodeScalar doubles length 'n'.toUInt8 (ascii "ull" ++ rest) =
        .ok (.nullElement, rest) := by
  have hfalse : 'f'.toUInt8 :: (ascii "alse" ++ rest) = ascii "false" ++ rest := by
    rw [← List.cons_append]
    congr 1
  have htrue : 't'.toUInt8 :: (ascii "rue" ++ rest) = ascii "true" ++ rest := by
    rw [← List.cons_append]
    congr 1
  have hnull : 'n'.toUInt8 :: (ascii "ull" ++ rest) = ascii "null" ++ rest := by
    rw [← List.cons_append]
    congr 1
  refine ⟨?_, ?_, ?_⟩
  · unfold decodeScalar
    rw [if_neg (by decide), if_pos rfl, hfalse]
    exact decodeLiteral_self _ _ _
  · unfold decodeScalar
    rw [if_neg (by decide), if_neg (by decide), if_pos rfl, htrue]
    exact decodeLiteral_self _ _ _
  · unfold decodeScalar
    rw [if_neg (by decide), if_neg (by decide), if_neg (by decide), if_pos rfl, hnull]
    exact decodeLiteral_self _ _ _

/-- A digit is none of the characters that start something else. -/
theorem isdigit_spec (c : UInt8) : isdigit c = true → isspace c = false ∧
    c ≠ '['.toUInt8 ∧ c ≠ ']'.toUInt8 ∧ c ≠ '\x7b'.toUInt8 ∧ c ≠ '"'.toUInt8 ∧
      c ≠ 'f'.toUInt8 ∧ c ≠ 't'.toUInt8 ∧ c ≠ 'n'.toUInt8 ∧ c ≠ '-'.toUInt8 :=
  forall_byte (p := fun c => isdigit c = true → isspace c = false ∧
    c ≠ '['.toUInt8 ∧ c ≠ ']'.toUInt8 ∧ c ≠ '\x7b'.toUInt8 ∧ c ≠ '"'.toUInt8 ∧
      c ≠ 'f'.toUInt8 ∧ c ≠ 't'.toUInt8 ∧ c ≠ 'n'.toUInt8 ∧ c ≠ '-'.toUInt8)
    (by decide +kernel) c

theorem decodeScalar_digit (doubles : Doubles δ) (length : Nat) {c : UInt8}
    (h : isdigit c = true) (rest : Bytes) :
    decodeScalar doubles length c rest = decodeNumber doubles length false (c :: rest) := by
  obtain ⟨-, -, -, -, hquote, hf, ht, hn, hminus⟩ := isdigit_spec c h
  unfold decodeScalar
  rw [if_neg hquote, if_neg hf, if_neg ht, if_neg hn, if_neg hminus, if_pos h]

theorem decodeScalar_minus (doubles : Doubles δ) (length : Nat) {c : UInt8}
    (h : isdigit c = true) (rest : Bytes) :
    decodeScalar doubles length '-'.toUInt8 (c :: rest) =
      decodeNumber doubles length true (c :: rest) := by
  unfold decodeScalar
  rw [if_neg (by decide), if_neg (by decide), if_neg (by decide), if_neg (by decide), if_pos rfl]
  exact if_pos h

theorem decimal_cons (value : Nat) :
    ∃ c more, decimal value = c :: more ∧ isdigit c = true := by
  have hdigit : ∀ c ∈ decimal value, isdigit c = true := by
    intro c hc
    rw [decimal_eq, List.mem_map] at hc
    obtain ⟨digit, hmem, rfl⟩ := hc
    exact (digitByte_spec (decimalDigits_lt value digit hmem)).1
  cases hdecimal : decimal value with
  | nil => exact absurd hdecimal (decimal_ne_nil value)
  | cons c more =>
    rw [hdecimal] at hdigit
    exact ⟨c, more, rfl, hdigit c List.mem_cons_self⟩

/-- How the text of an element begins. -/
structure Starts (c : UInt8) : Prop where
  space : isspace c = false
  endArray : c ≠ ']'.toUInt8

/-- What the decoder makes of a tree that is no container. -/
structure ReadsScalar (doubles : Doubles δ) (length : Nat) (text rest : Bytes) (c : UInt8)
    (more : Bytes) (event : Event δ) : Prop where
  text : text = c :: more
  starts : Starts c
  beginArray : c ≠ '['.toUInt8
  beginObject : c ≠ '\x7b'.toUInt8
  decode : decodeScalar doubles length c (more ++ rest) = .ok (event, rest)

theorem readsScalar_decimal (doubles : Doubles δ) (length : Nat) {value : Nat}
    {rest : Bytes} {event : Event δ}
    (h : decodeNumber doubles length false (decimal value ++ rest) = .ok (event, rest)) :
    ∃ c more, ReadsScalar doubles length (decimal value) rest c more event := by
  obtain ⟨c, more, hdecimal, hdigit⟩ := decimal_cons value
  obtain ⟨hspace, harray, hend, hobject, -⟩ := isdigit_spec c hdigit
  refine ⟨c, more, hdecimal, ⟨hspace, hend⟩, harray, hobject, ?_⟩
  rw [decodeScalar_digit doubles length hdigit, ← List.cons_append, ← hdecimal]
  exact h

theorem readsScalar_negative (doubles : Doubles δ) (length : Nat) {value : Nat}
    {rest : Bytes} {event : Event δ}
    (h : decodeNumber doubles length true (decimal value ++ rest) = .ok (event, rest)) :
    ∃ c more, ReadsScalar doubles length (ascii "-" ++ decimal value) rest c more event := by
  obtain ⟨c, more, hdecimal, hdigit⟩ := decimal_cons value
  refine ⟨'-'.toUInt8, decimal value, rfl, ⟨by decide, by decide⟩, by decide, by decide, ?_⟩
  rw [hdecimal] at h ⊢
  exact (decodeScalar_minus doubles length hdigit (more ++ rest)).trans h

theorem readsScalar_integer (doubles : Doubles δ) (length : Nat) (value : Int64) {c : UInt8}
    (hc : isFPChar c = false) (rest : Bytes) :
    ∃ first more, ReadsScalar doubles length (signedDecimal value.toInt) (c :: rest) first more
      (.integerElement value) := by
  have hlow := value.le_toInt
  have hhigh := value.toInt_lt
  unfold signedDecimal
  split
  · rename_i hnegative
    apply readsScalar_negative
    rw [decodeNumber_integer doubles length (Or.inl ⟨rfl, by omega⟩) hc]
    have hvalue : (if true = true then -((value.toInt.natAbs : Nat) : Int)
        else (value.toInt.natAbs : Nat)) = value.toInt := by
      rw [if_pos rfl]
      omega
    rw [hvalue, Int64.ofInt_toInt]
  · rename_i hnegative
    apply readsScalar_decimal
    rw [decodeNumber_integer doubles length (Or.inr (by omega)) hc]
    have hvalue : (if false = true then -((value.toInt.natAbs : Nat) : Int)
        else (value.toInt.natAbs : Nat)) = value.toInt := by
      rw [if_neg Bool.false_ne_true]
      omega
    rw [hvalue, Int64.ofInt_toInt]

theorem readsScalar_uinteger (doubles : Doubles δ) (length : Nat) (value : UInt64) {c : UInt8}
    (hc : isFPChar c = false) (rest : Bytes) :
    ∃ first more, ReadsScalar doubles length (decimal value.toNat) (c :: rest) first more
      (uintegerEvent value) := by
  apply readsScalar_decimal
  unfold uintegerEvent
  split
  · rename_i hfits
    exact decodeNumber_integer doubles length (Or.inr hfits) hc rest
  · rename_i hlarge
    have hmax : value.toNat ≤ ULLONG_MAX := by
      have := value.toNat_lt
      unfold ULLONG_MAX
      omega
    rw [decodeNumber_uinteger doubles length hlarge hmax hc, UInt64.ofNat_toNat]

theorem readsScalar_string (doubles : Doubles δ) {length : Nat} {value : PlainString}
    (hlength : (escape value.bytes).length < length) (rest : Bytes) :
    ∃ c more, ReadsScalar doubles length (quoted value.bytes) rest c more
      (.stringElement value.bytes) := by
  refine ⟨'"'.toUInt8, escape value.bytes ++ ascii "\"", rfl, ⟨by decide, by decide⟩, by decide,
    by decide, ?_⟩
  have hstring := decodeString_quoted value.plain hlength rest
  unfold decodeScalar
  rw [if_pos rfl]
  change (decodeString length (quoted value.bytes ++ rest) >>= _) = _
  rw [hstring]
  rfl

/-- A tree that is no container is read at once. -/
theorem readsScalar_text (doubles : Doubles δ) (buffers : DecodeBuffers) {tree : Tree}
    (hscalar : tree.isContainer = false) (hfits : tree.fits buffers = true) (name : Option Bytes)
    (prettyPrint : Bool) (level : Nat) {rest : Bytes} (hrest : EndsNumber rest) :
    ∃ c more event, ReadsScalar doubles buffers.stringBufferLength (tree.text prettyPrint level)
      rest c more event ∧ tree.events name = [(name, event)] := by
  obtain ⟨d, behind, rfl, hd⟩ := hrest
  obtain ⟨hfalse, htrue, hnull⟩ :=
    decodeScalar_literal doubles buffers.stringBufferLength (d :: behind)
  cases tree with
  | null =>
    exact ⟨_, _, _, ⟨show ascii "null" = _ by decide, ⟨by decide, by decide⟩,
        by decide, by decide, hnull⟩, rfl⟩
  | boolean value =>
    cases value with
    | false =>
      exact ⟨_, _, _, ⟨show ascii "false" = _ by decide, ⟨by decide, by decide⟩,
          by decide, by decide, hfalse⟩, rfl⟩
    | true =>
      exact ⟨_, _, _, ⟨show ascii "true" = _ by decide, ⟨by decide, by decide⟩,
          by decide, by decide, htrue⟩, rfl⟩
  | integer value =>
    obtain ⟨c, more, hreads⟩ :=
      readsScalar_integer doubles buffers.stringBufferLength value hd behind
    exact ⟨c, more, _, hreads, rfl⟩
  | uinteger value =>
    obtain ⟨c, more, hreads⟩ :=
      readsScalar_uinteger doubles buffers.stringBufferLength value hd behind
    exact ⟨c, more, _, hreads, rfl⟩
  | string value =>
    obtain ⟨c, more, hreads⟩ :=
      readsScalar_string doubles (of_decide_eq_true hfits) (d :: behind)
    exact ⟨c, more, _, hreads, rfl⟩
  | array values => cases hscalar
  | object entries => cases hscalar

def Fired.pair (fired : Fired δ) : Option Bytes × Event δ := (fired.name, fired.event)

/-- The events are found, and the rest is left. -/
def ReadTo (result : List (Fired δ) × Except JSONError (Bytes × Unit))
    (events : List (Option Bytes × Event δ)) (rest : Bytes) : Prop :=
  result.1.map Fired.pair = events ∧ result.2 = .ok (rest, ())

theorem text_starts (tree : Tree) (prettyPrint : Bool) (level : Nat) :
    ∃ c more, tree.text prettyPrint level = c :: more ∧ Starts c := by
  have hdecimal : ∀ value, ∃ c more, decimal value = c :: more ∧ Starts c := by
    intro value
    obtain ⟨c, more, hdecimal, hdigit⟩ := decimal_cons value
    obtain ⟨hspace, -, hend, -⟩ := isdigit_spec c hdigit
    exact ⟨c, more, hdecimal, ⟨hspace, hend⟩⟩
  cases tree with
  | null => exact ⟨_, _, show ascii "null" = 'n'.toUInt8 :: ascii "ull" by decide,
      ⟨by decide, by decide⟩⟩
  | boolean value =>
    cases value with
    | false => exact ⟨_, _, show ascii "false" = 'f'.toUInt8 :: ascii "alse" by decide,
        ⟨by decide, by decide⟩⟩
    | true => exact ⟨_, _, show ascii "true" = 't'.toUInt8 :: ascii "rue" by decide,
        ⟨by decide, by decide⟩⟩
  | integer value =>
    change ∃ c more, signedDecimal value.toInt = c :: more ∧ Starts c
    unfold signedDecimal
    split
    · exact ⟨'-'.toUInt8, _, rfl, ⟨by decide, by decide⟩⟩
    · exact hdecimal _
  | uinteger value => exact hdecimal value.toNat
  | string value => exact ⟨'"'.toUInt8, _, rfl, ⟨by decide, by decide⟩⟩
  | array values => exact ⟨'['.toUInt8, _, rfl, ⟨by decide, by decide⟩⟩
  | object entries => exact ⟨'\x7b'.toUInt8, _, rfl, ⟨by decide, by decide⟩⟩

/-- Behind an element there is a comma, or the end of the container. -/
theorem endsNumber_comma (rest : Bytes) : EndsNumber (ascii "," ++ rest) :=
  ⟨','.toUInt8, rest, rfl, by decide⟩

theorem endsNumber_end {white : Bytes} (hwhite : white.all isspace = true) {c : UInt8}
    (hc : isFPChar c = false) (rest : Bytes) : EndsNumber (white ++ c :: rest) := by
  cases white with
  | nil => exact ⟨c, rest, rfl, hc⟩
  | cons d white =>
    rw [List.all_cons, Bool.and_eq_true] at hwhite
    exact ⟨d, _, rfl, isFPChar_of_isspace d hwhite.1⟩

theorem skipComma_comma (rest : Bytes) : skipComma (ascii "," ++ rest) = .ok rest := by
  have hskip : skipWhitespace (ascii "," ++ rest) = ','.toUInt8 :: rest :=
    skipWhitespace_cons (by decide) rest
  unfold skipComma
  rw [hskip]
  rfl

theorem skipComma_end {white : Bytes} (hwhite : white.all isspace = true) {c : UInt8}
    (hspace : isspace c = false) (hcomma : c ≠ ','.toUInt8) (rest : Bytes) :
    skipComma (white ++ c :: rest) = .ok (c :: rest) := by
  unfold skipComma
  rw [skipWhitespace_append hwhite hspace]
  dsimp only
  rw [if_neg hcomma]
  rfl

/-- The name is read up to the value. -/
theorem decodeName_quoted {nameBufferLength : Nat} (key : PlainString)
    (hlength : (escape key.bytes).length < nameBufferLength) (prettyPrint : Bool) {c : UInt8}
    (hc : isspace c = false) {text more : Bytes} (htext : text = c :: more) (rest : Bytes) :
    decodeName nameBufferLength (quoted key.bytes ++ (colon prettyPrint ++ (text ++ rest))) =
      .ok (key.bytes, text ++ rest) := by
  have hcolon : ∃ space, space.all isspace = true ∧
      colon prettyPrint = ':'.toUInt8 :: space := by
    cases prettyPrint with
    | false => exact ⟨[], rfl, rfl⟩
    | true => exact ⟨ascii " ", by decide, rfl⟩
  obtain ⟨space, hspace, hcolon⟩ := hcolon
  have hbehind : skipWhitespace (colon prettyPrint ++ (text ++ rest)) =
      ':'.toUInt8 :: (space ++ (text ++ rest)) := by
    rw [hcolon]
    exact skipWhitespace_cons (by decide) _
  have hvalue : skipWhitespace (space ++ (text ++ rest)) = text ++ rest := by
    rw [htext, List.cons_append]
    exact skipWhitespace_append hspace hc _
  rw [decodeName_cons (decodeString_quoted key.plain hlength _) hbehind,
    if_neg (fun h => h rfl), hvalue]

/-- What follows on an element: nothing, or a comma and the elements as they would stand first. -/
def Continues (first others : Bytes) : Prop :=
  first = [] ∧ others = [] ∨ others = ascii "," ++ first

theorem continues_values (prettyPrint : Bool) (level : Nat) (values : List Tree) :
    Continues (valuesText prettyPrint level true values)
      (valuesText prettyPrint level false values) := by
  cases values with
  | nil => exact Or.inl ⟨rfl, rfl⟩
  | cons value rest =>
    right
    simp [valuesText, separator]

theorem continues_entries (prettyPrint : Bool) (level : Nat) (entries : List (PlainString × Tree)) :
    Continues (entriesText prettyPrint level true entries)
      (entriesText prettyPrint level false entries) := by
  cases entries with
  | nil => exact Or.inl ⟨rfl, rfl⟩
  | cons entry rest =>
    right
    simp [entriesText, separator]

/-- The comma is skipped, or else the white space before the end. -/
theorem Continues.skip {first others : Bytes} (h : Continues first others) {white : Bytes}
    (hwhite : white.all isspace = true) {c : UInt8} (hspace : isspace c = false)
    (hcomma : c ≠ ','.toUInt8) (hnumber : isFPChar c = false) (rest : Bytes) :
    EndsNumber (others ++ (white ++ c :: rest)) ∧
      ∃ white', white'.all isspace = true ∧
        first.length + white'.length ≤ others.length + white.length ∧
        skipComma (others ++ (white ++ c :: rest)) = .ok (first ++ (white' ++ c :: rest)) := by
  rcases h with ⟨rfl, rfl⟩ | rfl
  · refine ⟨endsNumber_end hwhite hnumber rest, [], rfl, Nat.zero_le _, ?_⟩
    exact skipComma_end hwhite hspace hcomma rest
  · rw [List.append_assoc]
    refine ⟨endsNumber_comma _, white, hwhite, ?_, skipComma_comma _⟩
    rw [List.length_append]
    omega

section

variable (doubles : Doubles δ) (buffers : DecodeBuffers)

mutual

theorem parse_tree (tree : Tree) (name : Option Bytes) (hfits : tree.fits buffers = true)
    (prettyPrint : Bool) (level : Nat) (rest : Bytes)
    (hrest : tree.isContainer = true ∨ EndsNumber rest) (fuel : Nat)
    (hfuel : 2 * (tree.text prettyPrint level).length < fuel) :
    ReadTo (parseElement doubles buffers Prod.mk fuel name
      (tree.text prettyPrint level ++ rest) ()) (tree.events name) rest := by
  obtain ⟨fuel, rfl⟩ : ∃ n, fuel = n + 1 := ⟨fuel - 1, by omega⟩
  cases hcontainer : tree.isContainer with
  | false =>
    rw [hcontainer] at hrest
    obtain ⟨c, more, event, hreads, hevents⟩ := readsScalar_text doubles buffers hcontainer hfits
      name prettyPrint level (hrest.resolve_left Bool.false_ne_true)
    have hskip : skipWhitespace (tree.text prettyPrint level ++ rest) = c :: (more ++ rest) := by
      rw [hreads.text]
      exact skipWhitespace_cons hreads.starts.space _
    rw [parseElement_succ, hskip]
    dsimp only
    rw [if_neg hreads.beginArray, if_neg hreads.beginObject, hreads.decode, hevents]
    exact ⟨rfl, rfl⟩
  | true =>
    cases tree with
    | array values =>
      have hskip : skipWhitespace ((Tree.array values).text prettyPrint level ++ rest) =
          '['.toUInt8 :: (valuesText prettyPrint (level + 1) true values ++
            (lineBreak (prettyPrint && !values.isEmpty) level ++ ']'.toUInt8 :: rest)) := by
        rw [Tree.text, List.append_assoc, List.append_assoc, List.append_assoc]
        exact skipWhitespace_cons (by decide) _
      obtain ⟨hevents, hresult⟩ := parse_values values hfits prettyPrint (level + 1) _
        (all_isspace_lineBreak (prettyPrint && !values.isEmpty) level) rest fuel (by
          rw [Tree.text] at hfuel
          simp only [List.length_append, ascii] at hfuel
          simp at hfuel ⊢
          omega)
      rw [parseElement_succ, hskip]
      dsimp only
      rw [if_pos rfl]
      refine ⟨?_, hresult⟩
      rw [List.map_cons, hevents]
      rfl
    | object entries =>
      have hskip : skipWhitespace ((Tree.object entries).text prettyPrint level ++ rest) =
          '\x7b'.toUInt8 :: (entriesText prettyPrint (level + 1) true entries ++
            (lineBreak (prettyPrint && !entries.isEmpty) level ++ '\x7d'.toUInt8 :: rest)) := by
        rw [Tree.text, List.append_assoc, List.append_assoc, List.append_assoc]
        exact skipWhitespace_cons (by decide) _
      obtain ⟨hevents, hresult⟩ := parse_entries entries hfits prettyPrint (level + 1) _
        (all_isspace_lineBreak (prettyPrint && !entries.isEmpty) level) rest fuel (by
          rw [Tree.text] at hfuel
          simp only [List.length_append, ascii] at hfuel
          simp at hfuel ⊢
          omega)
      rw [parseElement_succ, hskip]
      dsimp only
      rw [if_neg (by decide), if_pos rfl]
      refine ⟨?_, hresult⟩
      rw [List.map_cons, hevents]
      rfl
    | _ => cases hcontainer

theorem parse_values (values : List Tree) (hfits : valuesFit buffers values = true)
    (prettyPrint : Bool) (level : Nat) (white : Bytes) (hwhite : white.all isspace = true)
    (rest : Bytes) (fuel : Nat)
    (hfuel : 2 * ((valuesText prettyPrint level true values).length + white.length + 1) + 1 <
      fuel) :
    ReadTo (parseArray doubles buffers Prod.mk fuel
      (valuesText prettyPrint level true values ++ (white ++ ']'.toUInt8 :: rest)) ())
      (valuesEvents values ++ [(none, .endContainer)]) rest := by
  obtain ⟨fuel, rfl⟩ : ∃ n, fuel = n + 1 := ⟨fuel - 1, by omega⟩
  cases values with
  | nil =>
    have hskip : skipWhitespace (valuesText prettyPrint level true [] ++
        (white ++ ']'.toUInt8 :: rest)) = ']'.toUInt8 :: rest :=
      skipWhitespace_append hwhite (by decide) rest
    rw [parseArray_succ, hskip]
    exact ⟨rfl, rfl⟩
  | cons value more =>
    rw [valuesFit, Bool.and_eq_true] at hfits
    have htext : valuesText prettyPrint level true (value :: more) =
        lineBreak prettyPrint level ++ (value.text prettyPrint level ++
          valuesText prettyPrint level false more) := by
      rw [valuesText, List.append_assoc]
      rfl
    rw [htext, List.length_append, List.length_append] at hfuel
    obtain ⟨hends, white', hwhite', hlength, hcomma⟩ :=
      (continues_values prettyPrint level more).skip hwhite (c := ']'.toUInt8) (by decide)
        (by decide) (by decide) rest
    obtain ⟨c, tail, hstart, hstarts⟩ := text_starts value prettyPrint level
    have hpositive : 0 < (value.text prettyPrint level).length := by
      rw [hstart]
      exact Nat.succ_pos _
    obtain ⟨hevents, hresult⟩ := parse_tree value none hfits.1 prettyPrint level _
      (Or.inr hends) fuel (by omega)
    obtain ⟨hmoreEvents, hmoreResult⟩ := parse_values more hfits.2 prettyPrint level white' hwhite'
      rest fuel (by omega)
    have hskip : skipWhitespace (valuesText prettyPrint level true (value :: more) ++
        (white ++ ']'.toUInt8 :: rest)) = value.text prettyPrint level ++
          (valuesText prettyPrint level false more ++ (white ++ ']'.toUInt8 :: rest)) := by
      rw [htext, List.append_assoc, List.append_assoc, hstart]
      exact skipWhitespace_append (all_isspace_lineBreak _ _) hstarts.space _
    rw [parseArray_succ, hskip]
    rw [hstart, List.cons_append] at hevents hresult ⊢
    dsimp only
    rw [if_neg hstarts.endArray]
    cases hparse : parseElement doubles buffers Prod.mk fuel none (c :: (tail ++
        (valuesText prettyPrint level false more ++ (white ++ ']'.toUInt8 :: rest)))) () with
    | mk fired result =>
      rw [hparse] at hevents hresult
      dsimp only at hevents hresult
      subst hresult
      dsimp only
      rw [hcomma]
      refine ⟨?_, hmoreResult⟩
      rw [List.map_append, hevents, hmoreEvents, valuesEvents, List.append_assoc]

theorem parse_entries (entries : List (PlainString × Tree))
    (hfits : entriesFit buffers entries = true)
    (prettyPrint : Bool) (level : Nat) (white : Bytes) (hwhite : white.all isspace = true)
    (rest : Bytes) (fuel : Nat)
    (hfuel : 2 * ((entriesText prettyPrint level true entries).length + white.length + 1) + 1 <
      fuel) :
    ReadTo (parseObject doubles buffers Prod.mk fuel
      (entriesText prettyPrint level true entries ++ (white ++ '\x7d'.toUInt8 :: rest)) ())
      (entriesEvents entries ++ [(none, .endContainer)]) rest := by
  obtain ⟨fuel, rfl⟩ : ∃ n, fuel = n + 1 := ⟨fuel - 1, by omega⟩
  cases entries with
  | nil =>
    have hskip : skipWhitespace (entriesText prettyPrint level true [] ++
        (white ++ '\x7d'.toUInt8 :: rest)) = '\x7d'.toUInt8 :: rest :=
      skipWhitespace_append hwhite (by decide) rest
    rw [parseObject_succ, hskip]
    exact ⟨rfl, rfl⟩
  | cons entry more =>
    obtain ⟨key, value⟩ := entry
    rw [entriesFit, Bool.and_eq_true, Bool.and_eq_true, decide_eq_true_eq] at hfits
    have htext : entriesText prettyPrint level true ((key, value) :: more) =
        lineBreak prettyPrint level ++ (quoted key.bytes ++ (colon prettyPrint ++
          (value.text prettyPrint level ++ entriesText prettyPrint level false more))) := by
      rw [entriesText, List.append_assoc, List.append_assoc, List.append_assoc]
      rfl
    rw [htext] at hfuel
    simp only [List.length_append] at hfuel
    obtain ⟨hends, white', hwhite', hlength, hcomma⟩ :=
      (continues_entries prettyPrint level more).skip hwhite (c := '\x7d'.toUInt8) (by decide)
        (by decide) (by decide) rest
    obtain ⟨c, tail, hstart, hstarts⟩ := text_starts value prettyPrint level
    have hpositive : 0 < (value.text prettyPrint level).length := by
      rw [hstart]
      exact Nat.succ_pos _
    obtain ⟨hevents, hresult⟩ := parse_tree value (some key.bytes) hfits.1.2 prettyPrint level _
      (Or.inr hends) fuel (by omega)
    obtain ⟨hmoreEvents, hmoreResult⟩ := parse_entries more hfits.2 prettyPrint level white'
      hwhite' rest fuel (by omega)
    have hname := decodeName_quoted key hfits.1.1 prettyPrint hstarts.space hstart
      (entriesText prettyPrint level false more ++ (white ++ '\x7d'.toUInt8 :: rest))
    have hskip : skipWhitespace (entriesText prettyPrint level true ((key, value) :: more) ++
        (white ++ '\x7d'.toUInt8 :: rest)) = quoted key.bytes ++ (colon prettyPrint ++
          (value.text prettyPrint level ++ (entriesText prettyPrint level false more ++
            (white ++ '\x7d'.toUInt8 :: rest)))) := by
      rw [htext, List.append_assoc, List.append_assoc, List.append_assoc, List.append_assoc]
      exact skipWhitespace_append (all_isspace_lineBreak _ _) (by decide) _
    rw [parseObject_succ, hskip]
    have hquote : ∀ rest, quoted key.bytes ++ rest =
        '"'.toUInt8 :: (escape key.bytes ++ ascii "\"" ++ rest) := fun rest => rfl
    rw [hquote] at hname ⊢
    dsimp only
    rw [if_neg (by decide), hname]
    dsimp only
    cases hparse : parseElement doubles buffers Prod.mk fuel (some key.bytes)
        (value.text prettyPrint level ++
          (entriesText prettyPrint level false more ++ (white ++ '\x7d'.toUInt8 :: rest))) () with
    | mk fired result =>
      rw [hparse] at hevents hresult
      dsimp only at hevents hresult
      subst hresult
      dsimp only
      rw [hcomma]
      refine ⟨?_, hmoreResult⟩
      rw [List.map_append, hevents, hmoreEvents, entriesEvents, List.append_assoc]

end

end

/-! Documents. -/

theorem replay_eq_forM {σ : Type} (callbacks : Option Bytes → Event δ → EStateM JSONError σ Unit)
    (fired : List (Fired δ)) :
    replay callbacks fired =
      (fired.map Fired.pair).forM fun event => callbacks event.1 event.2 := by
  induction fired with
  | nil => rfl
  | cons event rest ih =>
    rw [replay, ih]
    rfl

theorem forM_append_single {σ α : Type} (events : List α) (last : α)
    (act : α → EStateM JSONError σ PUnit) :
    (events ++ [last]).forM act = events.forM act >>= fun _ => act last := by
  change forM (events ++ [last]) act = forM events act >>= fun _ => act last
  rw [List.forM_append]
  simp

/-- The encoder writes the tree without an error and within its bounds, and the decoder calls
back for each of the events of the tree in their order, and then for the end of the data. -/
theorem decode_encode {σ : Type} (doubles : Doubles δ)
    (callbacks : Option Bytes → Event δ → EStateM JSONError σ Unit) (prettyPrint : Bool)
    (tree : Tree) (hcontainer : tree.isContainer = true) (hdepth : tree.depth < 200)
    (stringBufferLength : Nat)
    (hfits : tree.fits ⟨stringBufferLength / 4, stringBufferLength - stringBufferLength / 4⟩ =
      true) :
    ∃ context, encode prettyPrint tree = .ok () context ∧ InBounds context ∧
      decode doubles callbacks context.userData stringBufferLength =
        (tree.events none ++ [(none, Event.endData)]).forM fun event =>
          callbacks event.1 event.2 := by
  obtain ⟨context, hrun, htext, hdeepest⟩ := encode_run prettyPrint tree
  refine ⟨context, hrun, hdeepest.trans_lt hdepth, ?_⟩
  obtain ⟨hevents, hresult⟩ := parse_tree doubles _ tree none hfits prettyPrint 0 []
    (Or.inl hcontainer) (decodeFuel (tree.text prettyPrint 0).length) (Nat.lt_succ_self _)
  rw [List.append_nil] at hevents hresult
  rw [htext, forM_append_single, ← hevents, ← replay_eq_forM]
  unfold decode
  dsimp only
  rw [decodeElement_memory]
  unfold outcome
  rw [hresult]
  simp only [map_bind, bind_assoc]
  rfl

/-- The events in the order of the calls. -/
def record (name : Option Bytes) (event : Event Unit) :
    EStateM JSONError (List (Option Bytes × Event Unit)) Unit :=
  modify (· ++ [(name, event)])

def exampleTree : Tree :=
  .object [(⟨ascii "a", by decide⟩, .array [.integer (-5), .uinteger 18446744073709551615,
    .boolean true, .null]), (⟨ascii "b\n", by decide⟩, .string ⟨ascii "\"c", by decide⟩)]

theorem decode_encode_example :
    ∃ context, encode true exampleTree = .ok () context ∧ InBounds context ∧
      decode exampleDoubles record context.userData 100 =
        (exampleTree.events none ++ [(none, Event.endData)]).forM fun event =>
          record event.1 event.2 :=
  decode_encode exampleDoubles record true exampleTree rfl (by decide) 100 (by decide +kernel)

end SentryCocoa.JSONCodec
