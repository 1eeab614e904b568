import SentryCocoa.JSONLiterals
import SentryCocoa.JSONElement

/-! The decoder with the bytes that it reads. A pointer into the buffer is what the buffer has
from there on, so the pointers compare as the lengths do, the other way round. What the source
reads only where it has compared the pointer with the end is taken off the front; every other
byte is read by its index, and the digits of an escape are looked up by theirs. -/
namespace SentryCocoa.JSONCodec

/-- Why the decoder stops. The last two are reads outside of the buffer and outside of the
table of the digits. -/
inductive Stop where
  | failed (error : JSONError)
  | outOfFuel
  | beyondEnd
  | outsideTable
  deriving DecidableEq

def Stop.isOutside : Stop → Bool
  | .failed _ => false
  | .outOfFuel => false
  | .beyondEnd => true
  | .outsideTable => true

variable {δ σ α β : Type}

namespace Checked

def failing (result : Except JSONError α) : Except Stop α := result.mapError .failed

/-- `bufferPtr[index]` -/
def readAt (bufferPtr : Bytes) (index : Nat) : Except Stop UInt8 :=
  match bufferPtr[index]? with
  | some c => pure c
  | none => throw .beyondEnd

/-- `g_hexConversion[c]`, with a `char` that has a sign. -/
def readHexConversion (c : UInt8) : Except Stop Nat :=
  let index := c.toInt8.toInt
  if 0 ≤ index ∧ index < 256 then pure (hexConversion c) else throw .outsideTable

/-- The four digits behind the `u` of an escape. -/
def readHexAccum (src : Bytes) : Except Stop Nat := do
  let first ← readHexConversion (← readAt src 1)
  let second ← readHexConversion (← readAt src 2)
  let third ← readHexConversion (← readAt src 3)
  let fourth ← readHexConversion (← readAt src 4)
  return (first <<< 12) ||| (second <<< 8) ||| (third <<< 4) ||| fourth

/-- The loop of `decodeString` over a string that has escapes. -/
def copyEscaped (srcEnd src : Bytes) : Except Stop Bytes :=
  if _h : srcEnd.length < src.length then do
    let c ← readAt src 0
    if c ≠ '\\'.toUInt8 then (c :: ·) <$> copyEscaped srcEnd (src.drop 1)
    else do
      let d ← readAt src 1
      if d ≠ 'u'.toUInt8 then
        match unescapeByte d with
        | some e => (e :: ·) <$> copyEscaped srcEnd (src.drop 2)
        | none => throw (.failed .invalidCharacter)
      else if (src.drop 1).length < srcEnd.length + 5 then throw (.failed .incomplete)
      else do
        let accum ← readHexAccum (src.drop 1)
        if accum > 0xFFFF then throw (.failed .invalidCharacter)
        else if 0xDC00 ≤ accum ∧ accum ≤ 0xDFFF then throw (.failed .invalidCharacter)
        else if 0xD800 ≤ accum ∧ accum ≤ 0xDBFF then
          if (src.drop 1).length < srcEnd.length + 11 then throw (.failed .incomplete)
          else do
            let b ← readAt src 6
            let u ← readAt src 7
            if b ≠ '\\'.toUInt8 ∨ u ≠ 'u'.toUInt8 then throw (.failed .invalidCharacter)
            else do
              let accum2 ← readHexAccum (src.drop 7)
              if accum2 < 0xDC00 ∨ accum2 > 0xDFFF then throw (.failed .invalidCharacter)
              else do
                let utf8 ← failing (writeUTF8 (((accum - 0xD800) <<< 10) ||| (accum2 - 0xDC00)))
                (utf8 ++ ·) <$> copyEscaped srcEnd (src.drop 12)
        else do
          let utf8 ← failing (writeUTF8 accum)
          (utf8 ++ ·) <$> copyEscaped srcEnd (src.drop 6)
  else pure []
termination_by src.length
decreasing_by all_goals (rw [List.length_drop]; omega)

def decodeString (dstBufferLength : Nat) (bufferPtr : Bytes) : Except Stop (Bytes × Bytes) := do
  let c ← readAt bufferPtr 0
  if c ≠ '"'.toUInt8 then throw (.failed .invalidCharacter)
  else match scanString (bufferPtr.drop 1) with
    | none => throw (.failed .incomplete)
    | some (content, rest) =>
      if content.length ≥ dstBufferLength then throw (.failed .dataTooLong)
      else if '\\'.toUInt8 ∉ content then pure (cString content, rest)
      else do
        let dst ← copyEscaped ('"'.toUInt8 :: rest) (bufferPtr.drop 1)
        return (cString dst, rest)

/-- Whether the letters stand in the buffer from the index on. -/
def readLetters (bufferPtr : Bytes) : Nat → Bytes → Except Stop Bool
  | _, [] => pure true
  | index, letter :: letters => do
    let c ← readAt bufferPtr index
    if c = letter then readLetters bufferPtr (index + 1) letters else pure false

def decodeLiteral (literal : Bytes) (event : Event δ) (bufferPtr : Bytes) :
    Except Stop (Event δ × Bytes) :=
  if bufferPtr.length < literal.length then throw (.failed .incomplete)
  else do
    let found ← readLetters bufferPtr 1 literal.tail
    if found then pure (event, bufferPtr.drop literal.length)
    else throw (.failed .invalidCharacter)

def decodeNumber (doubles : Doubles δ) (stringBufferLength : Nat) (negative : Bool)
    (start : Bytes) : Except Stop (Event δ × Bytes) :=
  let (accum, isOverflow, bufferPtr) := scanInteger 0 start
  if bufferPtr.length = 0 then throw (.failed .incomplete)
  else do
    let c ← readAt bufferPtr 0
    if ¬isFPChar c ∧ ¬isOverflow ∧ (negative ∧ accum ≤ 2 ^ 63 ∨ accum ≤ 2 ^ 63 - 1) then
      pure (.integerElement (Int64.ofInt (if negative then -accum else accum)), bufferPtr)
    else if ¬isFPChar c ∧ ¬isOverflow ∧ ¬negative then
      pure (.uintegerElement (UInt64.ofNat accum), bufferPtr)
    else
      let bufferPtr := bufferPtr.dropWhile isFPChar
      if bufferPtr.length = 0 then throw (.failed .incomplete)
      else
        let len := start.length - bufferPtr.length
        if len ≥ stringBufferLength then throw (.failed .dataTooLong)
        else
          let value := doubles.sscanf (start.take len)
          pure (.floatingPointElement (if negative then doubles.negate value else value), bufferPtr)

/-- An element that is no container, where the buffer begins with `c`. -/
def decodeScalar (doubles : Doubles δ) (stringBufferLength : Nat) (c : UInt8)
    (bufferPtr : Bytes) : Except Stop (Event δ × Bytes) :=
  if c = '"'.toUInt8 then do
    let (string, bufferPtr) ← decodeString stringBufferLength bufferPtr
    return (.stringElement string, bufferPtr)
  else if c = 'f'.toUInt8 then decodeLiteral (ascii "false") (.booleanElement false) bufferPtr
  else if c = 't'.toUInt8 then decodeLiteral (ascii "true") (.booleanElement true) bufferPtr
  else if c = 'n'.toUInt8 then decodeLiteral (ascii "null") .nullElement bufferPtr
  else if c = '-'.toUInt8 then do
    let d ← readAt bufferPtr 1
    if isdigit d then decodeNumber doubles stringBufferLength true (bufferPtr.drop 1)
    else throw (.failed .invalidCharacter)
  else if isdigit c then decodeNumber doubles stringBufferLength false bufferPtr
  else throw (.failed .invalidCharacter)

def decodeName (nameBufferLength : Nat) (bufferPtr : Bytes) : Except Stop (Bytes × Bytes) := do
  let (name, bufferPtr) ← decodeString nameBufferLength bufferPtr
  let bufferPtr := skipWhitespace bufferPtr
  if bufferPtr.length = 0 then throw (.failed .incomplete)
  else do
    let c ← readAt bufferPtr 0
    if c ≠ ':'.toUInt8 then throw (.failed .invalidCharacter)
    else pure (name, skipWhitespace (bufferPtr.drop 1))

def skipComma (bufferPtr : Bytes) : Except Stop Bytes :=
  let bufferPtr := skipWhitespace bufferPtr
  if bufferPtr.length = 0 then throw (.failed .incomplete)
  else do
    let c ← readAt bufferPtr 0
    pure (if c = ','.toUInt8 then bufferPtr.drop 1 else bufferPtr)

section

variable (doubles : Doubles δ) (buffers : DecodeBuffers)
variable (callbacks : Option Bytes → Event δ → EStateM JSONError σ Unit)

/-- A callback that fails ends the decoding with its result. -/
def callBack (name : Option Bytes) (event : Event δ) : EStateM Stop σ Unit := fun userData =>
  match callbacks name event userData with
  | .ok _ userData => .ok () userData
  | .error e userData => .error (.failed e) userData

mutual

def decodeElement : Nat → Option Bytes → Bytes → EStateM Stop σ Bytes
  | 0, _, _ => throw .outOfFuel
  | fuel + 1, name, bufferPtr => do
    let bufferPtr := skipWhitespace bufferPtr
    if bufferPtr.length = 0 then throw (.failed .incomplete)
    else
      let c ← liftExcept (readAt bufferPtr 0)
      if c = '['.toUInt8 then do
        callBack callbacks name .beginArray
        decodeArray fuel (bufferPtr.drop 1)
      else if c = '\x7b'.toUInt8 then do
        callBack callbacks name .beginObject
        decodeObject fuel (bufferPtr.drop 1)
      else do
        let (event, bufferPtr) ←
          liftExcept (decodeScalar doubles buffers.stringBufferLength c bufferPtr)
        callBack callbacks name event
        return bufferPtr

def decodeArray : Nat → Bytes → EStateM Stop σ Bytes
  | 0, _ => throw .outOfFuel
  | fuel + 1, bufferPtr => do
    let bufferPtr := skipWhitespace bufferPtr
    if bufferPtr.length = 0 then throw (.failed .incomplete)
    else
      let c ← liftExcept (readAt bufferPtr 0)
      if c = ']'.toUInt8 then do
        callBack callbacks none .endContainer
        return bufferPtr.drop 1
      else do
        let bufferPtr ← decodeElement fuel none bufferPtr
        let bufferPtr ← liftExcept (skipComma bufferPtr)
        decodeArray fuel bufferPtr

def decodeObject : Nat → Bytes → EStateM Stop σ Bytes
  | 0, _ => throw .outOfFuel
  | fuel + 1, bufferPtr => do
    let bufferPtr := skipWhitespace bufferPtr
    if bufferPtr.length = 0 then throw (.failed .incomplete)
    else
      let c ← liftExcept (readAt bufferPtr 0)
      if c = '\x7d'.toUInt8 then do
        callBack callbacks none .endContainer
        return bufferPtr.drop 1
      else do
        let (name, bufferPtr) ← liftExcept (decodeName buffers.nameBufferLength bufferPtr)
        let bufferPtr ← decodeElement fuel (some name) bufferPtr
        let bufferPtr ← liftExcept (skipComma bufferPtr)
        decodeObject fuel bufferPtr

end

/-- `sentrycrashjson_decode` -/
def decode (data : Bytes) (stringBufferLength : Nat) : EStateM Stop σ Unit := do
  let nameBufferLength := stringBufferLength / 4
  let _ ← decodeElement doubles ⟨nameBufferLength, stringBufferLength - nameBufferLength⟩ callbacks
    (decodeFuel data.length) none data
  callBack callbacks none .endData

end

/-! The reads. -/

@[simp] theorem readAt_cons_zero (c : UInt8) (rest : Bytes) : readAt (c :: rest) 0 = pure c := rfl

@[simp] theorem readAt_cons_succ (c : UInt8) (rest : Bytes) (index : Nat) :
    readAt (c :: rest) (index + 1) = readAt rest index := rfl

@[simp] theorem ok_bind (a : α) (f : α → Except Stop β) : Except.ok a >>= f = f a := rfl

@[simp] theorem failing_ok (a : α) : failing (.ok a) = .ok a := rfl

@[simp] theorem failing_error (e : JSONError) :
    failing (.error e : Except JSONError α) = .error (.failed e) := rfl

end Checked

/-- The table is read at a `char`, which has a sign. -/
def InTable (c : UInt8) : Prop := c.toNat < 128

instance : DecidablePred InTable := fun _ => inferInstanceAs (Decidable (_ < _))

namespace Checked

theorem index_iff (c : UInt8) : 0 ≤ c.toInt8.toInt ∧ c.toInt8.toInt < 256 ↔ InTable c :=
  Library.Unicode.forall_byte
    (p := fun c => 0 ≤ c.toInt8.toInt ∧ c.toInt8.toInt < 256 ↔ InTable c) (by decide +kernel) c

theorem readHexConversion_inTable {c : UInt8} (h : InTable c) :
    readHexConversion c = pure (hexConversion c) := if_pos ((index_iff c).2 h)

theorem readHexConversion_outside {c : UInt8} (h : ¬InTable c) :
    readHexConversion c = throw .outsideTable := if_neg (mt (index_iff c).1 h)

theorem readHexAccum_inTable {c₁ c₂ c₃ c₄ : UInt8} (h : ∀ c ∈ [c₁, c₂, c₃, c₄], InTable c)
    (u : UInt8) (rest : Bytes) :
    readHexAccum (u :: c₁ :: c₂ :: c₃ :: c₄ :: rest) = pure (hexAccum c₁ c₂ c₃ c₄) := by
  simp only [List.forall_mem_cons] at h
  obtain ⟨h₁, h₂, h₃, h₄, -⟩ := h
  simp only [readHexAccum, readAt_cons_succ, readAt_cons_zero, pure_bind,
    readHexConversion_inTable h₁, readHexConversion_inTable h₂, readHexConversion_inTable h₃,
    readHexConversion_inTable h₄]
  rfl

theorem readHexAccum_outside {c₁ c₂ c₃ c₄ : UInt8} (h : ∃ c ∈ [c₁, c₂, c₃, c₄], ¬InTable c)
    (u : UInt8) (rest : Bytes) :
    readHexAccum (u :: c₁ :: c₂ :: c₃ :: c₄ :: rest) = throw .outsideTable := by
  have hread (c : UInt8) : readHexConversion c =
      if InTable c then pure (hexConversion c) else throw .outsideTable := by
    split
    · exact readHexConversion_inTable ‹_›
    · exact readHexConversion_outside ‹_›
  simp only [readHexAccum, readAt_cons_succ, readAt_cons_zero, pure_bind, hread]
  by_cases h₁ : InTable c₁
  · by_cases h₂ : InTable c₂
    · by_cases h₃ : InTable c₃
      · have h₄ : ¬InTable c₄ := by
          intro h₄
          obtain ⟨c, hc, houtside⟩ := h
          simp only [List.mem_cons, List.not_mem_nil, or_false] at hc
          rcases hc with rfl | rfl | rfl | rfl
          · exact houtside h₁
          · exact houtside h₂
          · exact houtside h₃
          · exact houtside h₄
        simp only [if_pos h₁, if_pos h₂, if_pos h₃, if_neg h₄, pure_bind]
        rfl
      · simp only [if_pos h₁, if_pos h₂, if_neg h₃, pure_bind]
        rfl
    · simp only [if_pos h₁, if_neg h₂, pure_bind]
      rfl
  · simp only [if_neg h₁]
    rfl

end Checked

end SentryCocoa.JSONCodec
