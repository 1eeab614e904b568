import SentryCocoa.JSONRoundTrip
import SentryCocoa.Library.Unicode

/-! String literals, and the bytes that the decoder makes of them. A literal is a sequence of
characters, each written in one of the ways that the grammar of JSON has. -/
namespace SentryCocoa.JSONCodec
open SentryCocoa.Library.Unicode

/-- A digit of an escape; the letters may be of either case. -/
structure HexDigit where
  value : Fin 16
  upperCase : Bool

def hexByte (value : Nat) (upperCase : Bool) : UInt8 :=
  if value < 10 then UInt8.ofNat (value + 0x30)
  else if upperCase then UInt8.ofNat (value + 0x37)
  else UInt8.ofNat (value + 0x57)

def HexDigit.byte (digit : HexDigit) : UInt8 := hexByte digit.value digit.upperCase

/-- The four digits behind a `\u`. -/
structure CodeUnit where
  first : HexDigit
  second : HexDigit
  third : HexDigit
  fourth : HexDigit

def CodeUnit.value (digits : CodeUnit) : Nat :=
  ((digits.first.value * 16 + digits.second.value) * 16 + digits.third.value) * 16 +
    digits.fourth.value

def CodeUnit.bytes (digits : CodeUnit) : Bytes :=
  ['\\'.toUInt8, 'u'.toUInt8, digits.first.byte, digits.second.byte, digits.third.byte,
    digits.fourth.byte]

inductive ShortEscape where
  | quotationMark | reverseSolidus | solidus | backspace | formFeed | lineFeed
  | carriageReturn | tab

def ShortEscape.letter : ShortEscape → Char
  | .quotationMark => '"'
  | .reverseSolidus => '\\'
  | .solidus => '/'
  | .backspace => 'b'
  | .formFeed => 'f'
  | .lineFeed => 'n'
  | .carriageReturn => 'r'
  | .tab => 't'

def ShortEscape.char : ShortEscape → Char
  | .quotationMark => '"'
  | .reverseSolidus => '\\'
  | .solidus => '/'
  | .backspace => Char.ofNat 0x08
  | .formFeed => Char.ofNat 0x0C
  | .lineFeed => Char.ofNat 0x0A
  | .carriageReturn => Char.ofNat 0x0D
  | .tab => Char.ofNat 0x09

/-- A character of a literal. A surrogate that is not one of a pair stands for no character,
and there is none of them here. -/
inductive LiteralChar where
  | unescaped (c : Char) (space : 0x20 ≤ c.toNat) (quotationMark : c ≠ '"')
      (reverseSolidus : c ≠ '\\')
  | short (escape : ShortEscape)
  | basic (digits : CodeUnit) (lead : ¬IsLead digits.value) (trail : ¬IsTrail digits.value)
  | pair (lead trail : CodeUnit) (isLead : IsLead lead.value) (isTrail : IsTrail trail.value)

namespace LiteralChar

def bytes : LiteralChar → Bytes
  | .unescaped c _ _ _ => encodePoint c.toNat
  | .short escape => ['\\'.toUInt8, escape.letter.toUInt8]
  | .basic digits _ _ => digits.bytes
  | .pair lead trail _ _ => lead.bytes ++ trail.bytes

/-- The character that is denoted. -/
def char : LiteralChar → Char
  | .unescaped c _ _ _ => c
  | .short escape => escape.char
  | .basic digits _ _ => unitChar digits.value
  | .pair lead trail _ _ => pairChar lead.value trail.value

def isPair : LiteralChar → Bool
  | .pair _ _ _ _ => true
  | _ => false

/-- The number that the decoder writes: what a pair has is not offset. -/
def decoded : LiteralChar → Nat
  | .pair lead trail _ _ => (lead.value - 0xD800) * 0x400 + (trail.value - 0xDC00)
  | c => c.char.toNat

end LiteralChar

def literalContent (literal : List LiteralChar) : Bytes := literal.flatMap LiteralChar.bytes

def literalBytes (literal : List LiteralChar) : Bytes :=
  '"'.toUInt8 :: (literalContent literal ++ ['"'.toUInt8])

def literalText (literal : List LiteralChar) : List Char := literal.map LiteralChar.char

/-! The destination. -/

/-- What `decodeString` leaves in the destination in front of the NUL that it writes behind it,
and the buffer behind the literal. A string without an escape is copied as it is. -/
def decodeStringBuffer (dstBufferLength : Nat) (bufferPtr : Bytes) :
    Except JSONError (Bytes × Bytes) :=
  if bufferPtr.head? ≠ some '"'.toUInt8 then throw .invalidCharacter
  else match scanString bufferPtr.tail with
    | none => throw .incomplete
    | some (content, rest) =>
      if content.length ≥ dstBufferLength then throw .dataTooLong
      else if '\\'.toUInt8 ∉ content then pure (content, rest)
      else do
        let dst ← unescape content
        return (dst, rest)

theorem unescape_plain {content : Bytes} (h : '\\'.toUInt8 ∉ content) (rest : Bytes) :
    unescape (content ++ rest) = (content ++ ·) <$> unescape rest := by
  induction content with
  | nil => exact (id_map _).symm
  | cons c content ih =>
    rw [List.mem_cons, not_or] at h
    rw [List.cons_append, unescape.eq_def]
    dsimp only
    rw [if_pos (Ne.symm h.1), ih h.2, Functor.map_map]
    rfl

theorem decodeString_eq (dstBufferLength : Nat) (bufferPtr : Bytes) :
    decodeString dstBufferLength bufferPtr =
      (fun written => (cString written.1, written.2)) <$>
        decodeStringBuffer dstBufferLength bufferPtr := by
  unfold decodeString decodeStringBuffer
  split
  · rfl
  · cases scanString bufferPtr.tail with
    | none => rfl
    | some found =>
      dsimp only
      split
      · rfl
      · split
        · rename_i hplain
          have hcopy := unescape_plain hplain []
          rw [List.append_nil] at hcopy
          rw [hcopy, unescape]
          exact congrArg (fun content => Except.ok (cString content, found.2))
            (List.append_nil _)
        · cases unescape found.1 with
          | error e => rfl
          | ok dst => rfl

/-! The bits of an escape. -/

theorem hexConversion_hexByte :
    ∀ value < 16, ∀ upperCase, hexConversion (hexByte value upperCase) = value := by
  decide +kernel

theorem hexConversion_byte (digit : HexDigit) :
    hexConversion digit.byte = digit.value :=
  hexConversion_hexByte digit.value digit.value.isLt digit.upperCase

theorem or_eq_add {high low : Nat} (i : Nat) (hhigh : 2 ^ i ∣ high) (hlow : low < 2 ^ i) :
    high ||| low = high + low := by
  obtain ⟨count, rfl⟩ := hhigh
  exact (Nat.two_pow_add_eq_or_of_lt hlow count).symm

theorem hexAccum_bytes (digits : CodeUnit) :
    hexAccum digits.first.byte digits.second.byte digits.third.byte digits.fourth.byte =
      digits.value := by
  have h₂ := digits.second.value.isLt
  have h₃ := digits.third.value.isLt
  have h₄ := digits.fourth.value.isLt
  unfold hexAccum CodeUnit.value
  simp only [hexConversion_byte, Nat.shiftLeft_eq]
  generalize (digits.first.value : Nat) = d₁
  generalize (digits.second.value : Nat) = d₂ at h₂ ⊢
  generalize (digits.third.value : Nat) = d₃ at h₃ ⊢
  generalize (digits.fourth.value : Nat) = d₄ at h₄ ⊢
  have htwo : d₁ * 2 ^ 12 ||| d₂ * 2 ^ 8 = d₁ * 2 ^ 12 + d₂ * 2 ^ 8 :=
    or_eq_add 12 (by omega) (by omega)
  have hthree : d₁ * 2 ^ 12 + d₂ * 2 ^ 8 ||| d₃ * 2 ^ 4 =
      d₁ * 2 ^ 12 + d₂ * 2 ^ 8 + d₃ * 2 ^ 4 := or_eq_add 8 (by omega) (by omega)
  rw [htwo, hthree, or_eq_add 4 (by omega) (by omega)]
  omega

theorem CodeUnit.value_le (digits : CodeUnit) : digits.value ≤ 0xFFFF := by
  have h₁ := digits.first.value.isLt
  have h₂ := digits.second.value.isLt
  have h₃ := digits.third.value.isLt
  have h₄ := digits.fourth.value.isLt
  unfold CodeUnit.value
  omega

/-- The encoder of the source, for every number that it takes. -/
theorem writeUTF8_eq {character : Nat} (h : character ≤ 0x10FFFF) :
    writeUTF8 character = .ok (encodePoint character) := by
  have hmask (n : Nat) : n &&& 0x3F = n % 0x40 := Nat.and_two_pow_sub_one_eq_mod n 6
  have htail (n : Nat) : 0x80 ||| (n &&& 0x3F) = n % 0x40 + 0x80 := by
    rw [hmask, or_eq_add 6 (by decide) (by omega), Nat.add_comm]
  unfold writeUTF8 encodePoint
  simp only [htail, Nat.shiftRight_eq_div_pow]
  split
  · rfl
  · split
    · have hhead : 0xC0 ||| character / 2 ^ 6 = character / 64 % 0x20 + 0xC0 := by
        rw [or_eq_add 6 (by decide) (by omega)]
        omega
      rw [hhead]
      rfl
    · split
      · have hhead : 0xE0 ||| character / 2 ^ 12 = character / 4096 % 0x10 + 0xE0 := by
          rw [or_eq_add 4 (by decide) (by omega)]
          omega
        rw [hhead]
        rfl
      · have hhead : 0xF0 ||| character / 2 ^ 18 = character / 262144 % 0x08 + 0xF0 := by
          rw [or_eq_add 4 (by decide) (by omega)]
          omega
        simp only [hhead]
        rfl

/-! What is read of a literal. -/

theorem scanString_plain {content : Bytes} (hquote : '"'.toUInt8 ∉ content)
    (hescape : '\\'.toUInt8 ∉ content) (rest : Bytes) :
    scanString (content ++ rest) =
      (scanString rest).map fun found => (content ++ found.1, found.2) := by
  induction content with
  | nil => exact Option.map_id'.symm
  | cons c content ih =>
    rw [List.mem_cons, not_or] at hquote hescape
    rw [List.cons_append, scanString.eq_def]
    dsimp only
    rw [if_neg (Ne.symm hquote.1), if_neg (Ne.symm hescape.1), ih hquote.2 hescape.2,
      Option.map_map]
    rfl

theorem scanString_escaped (d : UInt8) (rest : Bytes) :
    scanString ('\\'.toUInt8 :: d :: rest) =
      (scanString rest).map fun found => ('\\'.toUInt8 :: d :: found.1, found.2) := by
  rw [scanString.eq_def]
  rfl

/-- No digit of an escape ends the string or starts another escape. -/
theorem hexByte_plain :
    ∀ value < 16, ∀ upperCase, hexByte value upperCase ≠ '"'.toUInt8 ∧
      hexByte value upperCase ≠ '\\'.toUInt8 := by
  decide +kernel

theorem CodeUnit.digits_plain (digits : CodeUnit) :
    '"'.toUInt8 ∉ digits.bytes.drop 2 ∧ '\\'.toUInt8 ∉ digits.bytes.drop 2 := by
  have hplain (digit : HexDigit) := hexByte_plain digit.value digit.value.isLt digit.upperCase
  have hfirst := hplain digits.first
  have hsecond := hplain digits.second
  have hthird := hplain digits.third
  have hfourth := hplain digits.fourth
  unfold CodeUnit.bytes HexDigit.byte
  simp only [List.drop_succ_cons, List.drop_zero, List.mem_cons, List.not_mem_nil, or_false,
    not_or]
  exact ⟨⟨Ne.symm hfirst.1, Ne.symm hsecond.1, Ne.symm hthird.1, Ne.symm hfourth.1⟩,
    Ne.symm hfirst.2, Ne.symm hsecond.2, Ne.symm hthird.2, Ne.symm hfourth.2⟩

theorem scanString_codeUnit (digits : CodeUnit) (rest : Bytes) :
    scanString (digits.bytes ++ rest) =
      (scanString rest).map fun found => (digits.bytes ++ found.1, found.2) := by
  have hdigits := digits.digits_plain
  have hbytes : digits.bytes = '\\'.toUInt8 :: 'u'.toUInt8 :: digits.bytes.drop 2 := rfl
  rw [hbytes, List.cons_append, List.cons_append, scanString_escaped,
    scanString_plain hdigits.1 hdigits.2, Option.map_map]
  rfl

/-- A character that is neither a quotation mark nor a backslash has no byte of these. -/
theorem not_mem_encodePoint {c d : Char} (hd : d.toNat < 0x80) (h : c ≠ d) :
    d.toUInt8 ∉ encodePoint c.toNat := by
  intro hmem
  have hbyte : d.toUInt8.toNat = d.toNat := by
    change d.toNat % 256 = d.toNat
    omega
  rcases Nat.lt_or_ge c.toNat 0x80 with hlow | hhigh
  · rw [encodePoint, if_pos (by omega), List.mem_singleton] at hmem
    apply h
    apply Char.toNat_inj.mp
    rw [hmem, UInt8.toNat_ofNat'] at hbyte
    omega
  · have := high_of_mem_encodePoint hhigh hmem
    omega

theorem scanString_char (c : LiteralChar) (rest : Bytes) :
    scanString (c.bytes ++ rest) =
      (scanString rest).map fun found => (c.bytes ++ found.1, found.2) := by
  cases c with
  | unescaped c space quotationMark reverseSolidus =>
    exact scanString_plain (not_mem_encodePoint (by decide) quotationMark)
      (not_mem_encodePoint (by decide) reverseSolidus) rest
  | short escape => exact scanString_escaped _ rest
  | basic digits lead trail => exact scanString_codeUnit digits rest
  | pair lead trail isLead isTrail =>
    change scanString (lead.bytes ++ trail.bytes ++ rest) =
      (scanString rest).map fun found => (lead.bytes ++ trail.bytes ++ found.1, found.2)
    rw [List.append_assoc, scanString_codeUnit, scanString_codeUnit, Option.map_map]
    rfl

theorem scanString_literal (literal : List LiteralChar) (rest : Bytes) :
    scanString (literalContent literal ++ '"'.toUInt8 :: rest) =
      some (literalContent literal, rest) := by
  induction literal with
  | nil =>
    change scanString ('"'.toUInt8 :: rest) = some ([], rest)
    rw [scanString.eq_def]
    exact if_pos rfl
  | cons c literal ih =>
    have hcons : literalContent (c :: literal) = c.bytes ++ literalContent literal :=
      List.flatMap_cons
    rw [hcons, List.append_assoc, scanString_char, ih]
    rfl

theorem unescape_short (escape : ShortEscape) (rest : Bytes) :
    unescape ('\\'.toUInt8 :: escape.letter.toUInt8 :: rest) =
      (encodePoint escape.char.toNat ++ ·) <$> unescape rest := by
  have hletter : escape.letter.toUInt8 ≠ 'u'.toUInt8 ∧
      unescapeByte escape.letter.toUInt8 = some (UInt8.ofNat escape.char.toNat) ∧
        escape.char.toNat ≤ 0x7F := by
    cases escape <;> decide
  obtain ⟨hunicode, hunescape, hascii⟩ := hletter
  rw [unescape.eq_def]
  dsimp only
  rw [if_neg (fun hne => hne rfl), if_pos hunicode, hunescape, encodePoint, if_pos hascii]
  rfl

theorem unescape_basic {digits : CodeUnit} (hlead : ¬IsLead digits.value)
    (htrail : ¬IsTrail digits.value) (rest : Bytes) :
    unescape (digits.bytes ++ rest) = (encodePoint digits.value ++ ·) <$> unescape rest := by
  have hmax := digits.value_le
  unfold IsLead at hlead
  unfold IsTrail at htrail
  unfold CodeUnit.bytes
  simp only [List.cons_append, List.nil_append]
  rw [unescape.eq_def]
  dsimp only
  rw [hexAccum_bytes, if_neg (fun hne => hne rfl), if_neg (fun hne => hne rfl),
    if_neg (by omega), if_neg htrail, if_neg hlead, writeUTF8_eq (by omega)]
  rfl

theorem unescape_pair {lead trail : CodeUnit} (hlead : IsLead lead.value)
    (htrail : IsTrail trail.value) (rest : Bytes) :
    unescape (lead.bytes ++ trail.bytes ++ rest) =
      (encodePoint ((lead.value - 0xD800) * 0x400 + (trail.value - 0xDC00)) ++ ·) <$>
        unescape rest := by
  have hmax := lead.value_le
  unfold IsLead at hlead
  unfold IsTrail at htrail
  have hbits : (lead.value - 0xD800) <<< 10 ||| (trail.value - 0xDC00) =
      (lead.value - 0xD800) * 0x400 + (trail.value - 0xDC00) := by
    rw [Nat.shiftLeft_eq, or_eq_add 10 (by omega) (by omega)]
  unfold CodeUnit.bytes
  simp only [List.cons_append, List.nil_append]
  rw [unescape.eq_def]
  dsimp only
  rw [hexAccum_bytes, hexAccum_bytes, if_neg (fun hne => hne rfl), if_neg (fun hne => hne rfl),
    if_neg (by omega), if_neg (by omega), if_pos hlead, if_neg (by simp), if_neg (by omega),
    hbits, writeUTF8_eq (by omega)]
  rfl

theorem unescape_char (c : LiteralChar) (rest : Bytes) :
    unescape (c.bytes ++ rest) = (encodePoint c.decoded ++ ·) <$> unescape rest := by
  cases c with
  | unescaped c space quotationMark reverseSolidus =>
    exact unescape_plain (not_mem_encodePoint (by decide) reverseSolidus) rest
  | short escape => exact unescape_short escape rest
  | basic digits lead trail =>
    have hvalue : (unitChar digits.value).toNat = digits.value :=
      toNat_unitChar digits.value_le lead trail
    change unescape (digits.bytes ++ rest) =
      (encodePoint (unitChar digits.value).toNat ++ ·) <$> unescape rest
    rw [hvalue, unescape_basic lead trail]
  | pair lead trail isLead isTrail => exact unescape_pair isLead isTrail rest

def decodedBytes (literal : List LiteralChar) : Bytes :=
  literal.flatMap fun c => encodePoint c.decoded

theorem unescape_literal (literal : List LiteralChar) :
    unescape (literalContent literal) = .ok (decodedBytes literal) := by
  induction literal with
  | nil => rfl
  | cons c literal ih =>
    have hcons : literalContent (c :: literal) = c.bytes ++ literalContent literal :=
      List.flatMap_cons
    rw [hcons, unescape_char, ih]
    rfl

/-- Every literal that is short enough is read, and what is written is known. -/
theorem decodeStringBuffer_literal {literal : List LiteralChar} {dstBufferLength : Nat}
    (hlength : (literalContent literal).length < dstBufferLength) (rest : Bytes) :
    decodeStringBuffer dstBufferLength (literalBytes literal ++ rest) =
      .ok (decodedBytes literal, rest) := by
  have hbytes : literalBytes literal ++ rest =
      '"'.toUInt8 :: (literalContent literal ++ '"'.toUInt8 :: rest) := by
    unfold literalBytes
    simp
  have hunescape := unescape_literal literal
  rw [hbytes, decodeStringBuffer, if_neg (by simp), List.tail_cons, scanString_literal]
  dsimp only
  rw [if_neg (by omega)]
  split
  · rename_i hplain
    have hcopy := unescape_plain hplain []
    rw [List.append_nil, hunescape, unescape] at hcopy
    have hsame : decodedBytes literal = literalContent literal ++ [] := Except.ok.inj hcopy
    rw [hsame, List.append_nil]
    rfl
  · rw [hunescape]
    rfl

/-! What is denoted. -/

theorem decoded_of_not_pair {c : LiteralChar} (h : c.isPair = false) :
    c.decoded = c.char.toNat := by
  cases c with
  | pair => cases h
  | unescaped => rfl
  | short => rfl
  | basic => rfl

/-- A pair is written as another number than that of its character, and the bytes tell. -/
theorem encodePoint_pair_ne {c : LiteralChar} (h : c.isPair = true) (rest rest' : Bytes) :
    encodePoint c.decoded ++ rest ≠ encodePoint c.char.toNat ++ rest' := by
  cases c with
  | unescaped => cases h
  | short => cases h
  | basic => cases h
  | pair lead trail isLead isTrail =>
    have hpoint := toNat_pairChar isLead isTrail
    change encodePoint ((lead.value - 0xD800) * 0x400 + (trail.value - 0xDC00)) ++ rest ≠
      encodePoint (pairChar lead.value trail.value).toNat ++ rest'
    rw [hpoint]
    unfold IsLead at isLead
    unfold IsTrail at isTrail
    unfold pairPoint
    apply encodePoint_append_ne <;> omega

theorem decodedBytes_eq_iff (literal : List LiteralChar) :
    decodedBytes literal = utf8 (literalText literal) ↔ ∀ c ∈ literal, c.isPair = false := by
  induction literal with
  | nil => simp [decodedBytes, literalText, utf8]
  | cons c literal ih =>
    have hdecoded : decodedBytes (c :: literal) =
        encodePoint c.decoded ++ decodedBytes literal := List.flatMap_cons
    have htext : literalText (c :: literal) = c.char :: literalText literal := List.map_cons
    rw [hdecoded, htext, utf8_cons, List.forall_mem_cons, ← ih]
    cases hpair : c.isPair with
    | false =>
      rw [decoded_of_not_pair hpair, List.append_cancel_left_eq]
      exact (and_iff_right rfl).symm
    | true =>
      constructor
      · intro heq
        exact absurd heq (encodePoint_pair_ne hpair _ _)
      · intro h
        cases h.1

/-- The decoder writes the text that a literal denotes where no pair of surrogates is in it. -/
theorem writesText_iff_noPair (literal : List LiteralChar) (dstBufferLength : Nat)
    (rest : Bytes) (hlength : (literalContent literal).length < dstBufferLength) :
    decodeStringBuffer dstBufferLength (literalBytes literal ++ rest) =
        .ok (utf8 (literalText literal), rest) ↔
      ∀ c ∈ literal, c.isPair = false := by
  rw [decodeStringBuffer_literal hlength, ← decodedBytes_eq_iff]
  constructor
  · intro heq
    exact congrArg Prod.fst (Except.ok.inj heq)
  · intro heq
    rw [heq]

def lowerCase (value : Fin 16) : HexDigit := ⟨value, false⟩

/-- `\ud83d\ude00`, which denotes U+1F600. -/
def exampleLead : CodeUnit := ⟨lowerCase 13, lowerCase 8, lowerCase 3, lowerCase 13⟩

def exampleTrail : CodeUnit := ⟨lowerCase 13, lowerCase 14, lowerCase 0, lowerCase 0⟩

def examplePair : List LiteralChar := [.pair exampleLead exampleTrail (by decide) (by decide)]

/-- `a\u00E9\n`, which is read as it is meant. -/
def exampleText : List LiteralChar :=
  [.unescaped 'a' (by decide) (by decide) (by decide),
    .basic ⟨lowerCase 0, lowerCase 0, ⟨14, true⟩, lowerCase 9⟩ (by decide) (by decide),
    .short .lineFeed]

theorem writesText_iff_noPair_exampleText :
    decodeStringBuffer 100 (literalBytes exampleText ++ ascii ",") =
      .ok ([0x61, 0xC3, 0xA9, 0x0A], ascii ",") :=
  (writesText_iff_noPair exampleText 100 (ascii ",") (by decide +kernel)).mpr (by decide)

/-- The bytes are those of U+F600, which is another character. -/
theorem examplePair_misread :
    decodeStringBuffer 100 (literalBytes examplePair ++ ascii ",") =
        .ok ([0xEF, 0x98, 0x80], ascii ",") ∧
      decodeStringBuffer 100 (literalBytes examplePair ++ ascii ",") ≠
        .ok (utf8 (literalText examplePair), ascii ",") := by
  decide +kernel

end SentryCocoa.JSONCodec
