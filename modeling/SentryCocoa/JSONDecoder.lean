import SentryCocoa.JSONEncoder

/-! The decoder of the crash reports. It calls back for each element that it finds, and a
callback returns where the buffer goes on, because one that reads from a file may have moved
its contents. The buffer stands for the bytes from the current one up to its end. -/
namespace SentryCocoa.JSONCodec

inductive Event (δ : Type) where
  | booleanElement (value : Bool)
  | floatingPointElement (value : δ)
  | integerElement (value : Int64)
  | uintegerElement (value : UInt64)
  | nullElement
  | stringElement (value : Bytes)
  | beginObject
  | beginArray
  | endContainer
  | endData
  deriving DecidableEq

/-- The sizes of the buffers for a name and for a string. -/
structure DecodeBuffers where
  nameBufferLength : Nat
  stringBufferLength : Nat

variable {δ : Type}

def isspace (c : UInt8) : Bool := c = ' '.toUInt8 || (0x09 ≤ c && c ≤ 0x0D)

def isdigit (c : UInt8) : Bool := '0'.toUInt8 ≤ c && c ≤ '9'.toUInt8

def isFPChar (c : UInt8) : Bool := isdigit c || (ascii ".eE+-").contains c

def skipWhitespace (bufferPtr : Bytes) : Bytes := bufferPtr.dropWhile isspace

/-- The value of a hexadecimal digit; 0x11111 marks what is none. -/
def hexConversion (c : UInt8) : Nat :=
  if isdigit c then c.toNat - 0x30
  else if 'A'.toUInt8 ≤ c ∧ c ≤ 'F'.toUInt8 then c.toNat - 0x37
  else if 'a'.toUInt8 ≤ c ∧ c ≤ 'f'.toUInt8 then c.toNat - 0x57
  else 0x11111

def hexAccum (c₁ c₂ c₃ c₄ : UInt8) : Nat :=
  (hexConversion c₁ <<< 12) ||| (hexConversion c₂ <<< 8) ||| (hexConversion c₃ <<< 4) |||
    hexConversion c₄

def writeUTF8 (character : Nat) : Except JSONError Bytes :=
  if character ≤ 0x7F then pure [UInt8.ofNat character]
  else if character ≤ 0x7FF then
    pure [UInt8.ofNat (0xC0 ||| (character >>> 6)), UInt8.ofNat (0x80 ||| (character &&& 0x3F))]
  else if character ≤ 0xFFFF then
    pure [UInt8.ofNat (0xE0 ||| (character >>> 12)),
      UInt8.ofNat (0x80 ||| ((character >>> 6) &&& 0x3F)),
      UInt8.ofNat (0x80 ||| (character &&& 0x3F))]
  else if character ≤ 0x10FFFF then
    pure [UInt8.ofNat (0xF0 ||| (character >>> 18)),
      UInt8.ofNat (0x80 ||| ((character >>> 12) &&& 0x3F)),
      UInt8.ofNat (0x80 ||| ((character >>> 6) &&& 0x3F)),
      UInt8.ofNat (0x80 ||| (character &&& 0x3F))]
  else throw .invalidCharacter

/-- The content up to the quotation mark that ends the string, and what follows. -/
def scanString : Bytes → Option (Bytes × Bytes)
  | [] => none
  | c :: rest =>
    if c = '"'.toUInt8 then some ([], rest)
    else if c = '\\'.toUInt8 then
      match rest with
      | [] => none
      | d :: rest => (scanString rest).map fun found => (c :: d :: found.1, found.2)
    else (scanString rest).map fun found => (c :: found.1, found.2)

def unescapeByte (c : UInt8) : Option UInt8 :=
  if c = '"'.toUInt8 ∨ c = '\\'.toUInt8 ∨ c = '/'.toUInt8 then some c
  else if c = 'n'.toUInt8 then some 0x0A
  else if c = 'r'.toUInt8 then some 0x0D
  else if c = 't'.toUInt8 then some 0x09
  else if c = 'b'.toUInt8 then some 0x08
  else if c = 'f'.toUInt8 then some 0x0C
  else none

/-- A pair of surrogates is combined without the offset of the planes that it stands for. -/
def unescape : Bytes → Except JSONError Bytes
  | [] => pure []
  | c :: rest =>
    if c ≠ '\\'.toUInt8 then (c :: ·) <$> unescape rest
    else match rest with
      | [] => throw .invalidCharacter
      | d :: rest =>
        if d ≠ 'u'.toUInt8 then
          match unescapeByte d with
          | some e => (e :: ·) <$> unescape rest
          | none => throw .invalidCharacter
        else match rest with
          | c₁ :: c₂ :: c₃ :: c₄ :: rest =>
            let accum := hexAccum c₁ c₂ c₃ c₄
            if accum > 0xFFFF then throw .invalidCharacter
            else if 0xDC00 ≤ accum ∧ accum ≤ 0xDFFF then throw .invalidCharacter
            else if 0xD800 ≤ accum ∧ accum ≤ 0xDBFF then
              match rest with
              | b :: u :: d₁ :: d₂ :: d₃ :: d₄ :: rest =>
                if b ≠ '\\'.toUInt8 ∨ u ≠ 'u'.toUInt8 then throw .invalidCharacter
                else
                  let accum2 := hexAccum d₁ d₂ d₃ d₄
                  if accum2 < 0xDC00 ∨ accum2 > 0xDFFF then throw .invalidCharacter
                  else do
                    let utf8 ← writeUTF8 (((accum - 0xD800) <<< 10) ||| (accum2 - 0xDC00))
                    (utf8 ++ ·) <$> unescape rest
              | _ => throw .incomplete
            else do
              let utf8 ← writeUTF8 accum
              (utf8 ++ ·) <$> unescape rest
          | _ => throw .incomplete

/-- Whoever gets the buffer reads it up to the first NUL. -/
def cString (buffer : Bytes) : Bytes := buffer.takeWhile (· ≠ 0)

def decodeString (dstBufferLength : Nat) (bufferPtr : Bytes) : Except JSONError (Bytes × Bytes) :=
  if bufferPtr.head? ≠ some '"'.toUInt8 then throw .invalidCharacter
  else match scanString bufferPtr.tail with
    | none => throw .incomplete
    | some (content, rest) =>
      if content.length ≥ dstBufferLength then throw .dataTooLong
      else do
        let dst ← unescape content
        return (cString dst, rest)

def ULLONG_MAX : Nat := 2 ^ 64 - 1

/-- The number up to the first character that is no digit, or that would overflow. -/
def scanInteger (accum : Nat) : Bytes → Nat × Bool × Bytes
  | [] => (accum, false, [])
  | c :: rest =>
    if isdigit c then
      if accum > ULLONG_MAX / 10 then (accum, true, c :: rest)
      else
        let nextDigit := c.toNat - '0'.toNat
        if accum * 10 > ULLONG_MAX - nextDigit then (accum * 10, true, c :: rest)
        else scanInteger (accum * 10 + nextDigit) rest
    else (accum, false, c :: rest)

def decodeNumber (doubles : Doubles δ) (stringBufferLength : Nat) (negative : Bool)
    (start : Bytes) : Except JSONError (Event δ × Bytes) :=
  match scanInteger 0 start with
  | (_, _, []) => throw .incomplete
  | (accum, isOverflow, c :: bufferPtr) =>
    if ¬isFPChar c ∧ ¬isOverflow ∧ (negative ∧ accum ≤ 2 ^ 63 ∨ accum ≤ 2 ^ 63 - 1) then
      pure (.integerElement (Int64.ofInt (if negative then -accum else accum)), c :: bufferPtr)
    else if ¬isFPChar c ∧ ¬isOverflow ∧ ¬negative then
      pure (.uintegerElement (UInt64.ofNat accum), c :: bufferPtr)
    else
      match (c :: bufferPtr).dropWhile isFPChar with
      | [] => throw .incomplete
      | d :: rest =>
        let len := start.length - (d :: rest).length
        if len ≥ stringBufferLength then throw .dataTooLong
        else
          let value := doubles.sscanf (start.take len)
          pure (.floatingPointElement (if negative then doubles.negate value else value), d :: rest)

def decodeLiteral (literal : Bytes) (event : Event δ) (bufferPtr : Bytes) :
    Except JSONError (Event δ × Bytes) :=
  if bufferPtr.length < literal.length then throw .incomplete
  else if bufferPtr.take literal.length ≠ literal then throw .invalidCharacter
  else pure (event, bufferPtr.drop literal.length)

/-- An element that is no container. The byte behind a minus sign is read even when the
buffer ends there; it is then taken for one that is no digit. -/
def decodeScalar (doubles : Doubles δ) (stringBufferLength : Nat) (c : UInt8) (rest : Bytes) :
    Except JSONError (Event δ × Bytes) :=
  if c = '"'.toUInt8 then do
    let (string, bufferPtr) ← decodeString stringBufferLength (c :: rest)
    return (.stringElement string, bufferPtr)
  else if c = 'f'.toUInt8 then decodeLiteral (ascii "false") (.booleanElement false) (c :: rest)
  else if c = 't'.toUInt8 then decodeLiteral (ascii "true") (.booleanElement true) (c :: rest)
  else if c = 'n'.toUInt8 then decodeLiteral (ascii "null") .nullElement (c :: rest)
  else if c = '-'.toUInt8 then
    match rest with
    | [] => throw .invalidCharacter
    | d :: _ =>
      if isdigit d then decodeNumber doubles stringBufferLength true rest
      else throw .invalidCharacter
  else if isdigit c then decodeNumber doubles stringBufferLength false (c :: rest)
  else throw .invalidCharacter

/-- The name of an element in an object, and the buffer behind the colon. -/
def decodeName (nameBufferLength : Nat) (bufferPtr : Bytes) : Except JSONError (Bytes × Bytes) := do
  let (name, bufferPtr) ← decodeString nameBufferLength bufferPtr
  match skipWhitespace bufferPtr with
  | [] => throw .incomplete
  | c :: rest =>
    if c ≠ ':'.toUInt8 then throw .invalidCharacter
    else pure (name, skipWhitespace rest)

theorem decodeName_error {nameBufferLength : Nat} {bufferPtr : Bytes} {e : JSONError}
    (h : decodeString nameBufferLength bufferPtr = .error e) :
    decodeName nameBufferLength bufferPtr = .error e := by
  unfold decodeName
  rw [h]
  rfl

theorem decodeName_end {nameBufferLength : Nat} {bufferPtr name behind : Bytes}
    (h : decodeString nameBufferLength bufferPtr = .ok (name, behind))
    (hskip : skipWhitespace behind = []) :
    decodeName nameBufferLength bufferPtr = .error .incomplete := by
  unfold decodeName
  rw [h]
  dsimp only [bind, Except.bind]
  rw [hskip]
  rfl

/-- The character behind the name decides. -/
theorem decodeName_cons {nameBufferLength : Nat} {bufferPtr name behind rest : Bytes} {c : UInt8}
    (h : decodeString nameBufferLength bufferPtr = .ok (name, behind))
    (hskip : skipWhitespace behind = c :: rest) :
    decodeName nameBufferLength bufferPtr =
      if c ≠ ':'.toUInt8 then .error .invalidCharacter else .ok (name, skipWhitespace rest) := by
  unfold decodeName
  rw [h]
  dsimp only [bind, Except.bind]
  rw [hskip]
  rfl

/-- A comma is not needed behind an element, only skipped. -/
def skipComma (bufferPtr : Bytes) : Except JSONError Bytes :=
  match skipWhitespace bufferPtr with
  | [] => throw .incomplete
  | c :: rest => pure (if c = ','.toUInt8 then rest else c :: rest)

section

variable {m : Type → Type} [Monad m] [MonadExceptOf JSONError m]
variable (doubles : Doubles δ) (buffers : DecodeBuffers)
variable (callback : Option Bytes → Event δ → Bytes → m Bytes)

mutual

def decodeElement : Nat → Option Bytes → Bytes → m Bytes
  | 0, _, _ => throw .outOfFuel
  | fuel + 1, name, bufferPtr =>
    match skipWhitespace bufferPtr with
    | [] => throw .incomplete
    | c :: rest =>
      if c = '['.toUInt8 then do
        let bufferPtr ← callback name .beginArray rest
        decodeArray fuel bufferPtr
      else if c = '\x7b'.toUInt8 then do
        let bufferPtr ← callback name .beginObject rest
        decodeObject fuel bufferPtr
      else do
        let (event, bufferPtr) ← liftExcept (decodeScalar doubles buffers.stringBufferLength c rest)
        callback name event bufferPtr

def decodeArray : Nat → Bytes → m Bytes
  | 0, _ => throw .outOfFuel
  | fuel + 1, bufferPtr =>
    match skipWhitespace bufferPtr with
    | [] => throw .incomplete
    | c :: rest =>
      if c = ']'.toUInt8 then callback none .endContainer rest
      else do
        let bufferPtr ← decodeElement fuel none (c :: rest)
        let bufferPtr ← liftExcept (skipComma bufferPtr)
        decodeArray fuel bufferPtr

def decodeObject : Nat → Bytes → m Bytes
  | 0, _ => throw .outOfFuel
  | fuel + 1, bufferPtr =>
    match skipWhitespace bufferPtr with
    | [] => throw .incomplete
    | c :: rest =>
      if c = '\x7d'.toUInt8 then callback none .endContainer rest
      else do
        let (name, bufferPtr) ← liftExcept (decodeName buffers.nameBufferLength (c :: rest))
        let bufferPtr ← decodeElement fuel (some name) bufferPtr
        let bufferPtr ← liftExcept (skipComma bufferPtr)
        decodeObject fuel bufferPtr

end

end

end SentryCocoa.JSONCodec
