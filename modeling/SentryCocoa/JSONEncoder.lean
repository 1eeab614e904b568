import Mathlib.Data.Nat.Digits.Defs

/-! The encoder of the crash reports. It keeps no text itself but hands every piece to a
handler, which may fail. Bytes are those of UTF-8, and a string that is given without its
length has no NUL in it. -/
namespace SentryCocoa.JSONCodec

abbrev Bytes := List UInt8

/-- The results other than `SentryCrashJSON_OK`. The decoder runs on fuel, and the last one,
which the source does not have, says that there was too little of it. -/
inductive JSONError where
  | invalidCharacter | dataTooLong | cannotAddData | incomplete | invalidData
  | outOfFuel
  deriving DecidableEq, Repr

/-- `SentryCrashJSONEncodeContext`. Of `isObject` there are the entries up to the current
container, that one first, so the container level is their number. The greatest level so far
is not in the source; it is the greatest index at which `isObject` was written. -/
structure EncodeContext (ω : Type) where
  handler : Bytes → ω → Bool × ω
  userData : ω
  isObject : List Bool
  containerFirstEntry : Bool
  prettyPrint : Bool
  deepestLevel : Nat

variable {ω δ : Type}

def EncodeContext.containerLevel (context : EncodeContext ω) : Nat := context.isObject.length

/-- The context stays as it is left when a function fails. -/
abbrev Encode (ω : Type) := EStateM JSONError (EncodeContext ω)

/-- The functions of the C library that print and read doubles. -/
structure Doubles (δ : Type) where
  isnan : δ → Bool
  snprintf : δ → Bytes
  sscanf : Bytes → δ
  negate : δ → δ

def ascii (text : String) : Bytes := text.toList.map fun c => c.toUInt8

def addJSONData (data : Bytes) : Encode ω Unit := fun context =>
  match context.handler data context.userData with
  | (true, userData) => .ok () { context with userData := userData }
  | (false, userData) => .error .cannotAddData { context with userData := userData }

/-! Strings. -/

def escapeByte (c : UInt8) : Option Bytes :=
  if c = '\\'.toUInt8 ∨ c = '"'.toUInt8 then some ['\\'.toUInt8, c]
  else if c = 0x08 then some (ascii "\\b")
  else if c = 0x0C then some (ascii "\\f")
  else if c = 0x0A then some (ascii "\\n")
  else if c = 0x0D then some (ascii "\\r")
  else if c = 0x09 then some (ascii "\\t")
  else if c < ' '.toUInt8 then none
  else some [c]

def appendEscapedString (string : Bytes) : Encode ω Unit :=
  match string.mapM escapeByte with
  | none => throw .invalidCharacter
  | some escaped => addJSONData escaped.flatten

/-- The portions that fit in the work buffer when all of their bytes are escaped. -/
def portions : Nat → Bytes → List Bytes
  | 0, _ => []
  | n + 1, string =>
    if string.length = 0 then [] else string.take 256 :: portions n (string.drop 256)

def addEscapedString (string : Bytes) : Encode ω Unit :=
  (portions string.length string).forM appendEscapedString

/-- The result of a function that may fail, as a number that is not zero then. -/
def failed (function : Encode ω Unit) : Encode ω Bool := fun context =>
  match function context with
  | .ok _ context => .ok false context
  | .error _ context => .ok true context

/-- The string is closed even when its content could not be written. A failure of either is
the number one, which is that of an invalid character. -/
def addQuotedEscapedString (string : Bytes) : Encode ω Unit := do
  addJSONData (ascii "\"")
  let result ← failed (addEscapedString string)
  let closeResult ← failed (addJSONData (ascii "\""))
  if result || closeResult then throw .invalidCharacter

/-! Elements. -/

def addIndentation : Nat → Encode ω Unit
  | 0 => pure ()
  | level + 1 => do
    addJSONData (ascii "    ")
    addIndentation level

/-- A name is needed in an object only. -/
def beginElement (name : Option Bytes) : Encode ω Unit := do
  let context ← get
  if context.containerFirstEntry then
    set { context with containerFirstEntry := false }
  else
    addJSONData (ascii ",")
  if context.prettyPrint ∧ context.containerLevel > 0 then
    addJSONData (ascii "\n")
    addIndentation context.containerLevel
  if context.isObject.headD false then
    match name with
    | none => throw .invalidData
    | some name =>
      addQuotedEscapedString name
      addJSONData (if context.prettyPrint then ascii ": " else ascii ":")

def addBooleanElement (name : Option Bytes) (value : Bool) : Encode ω Unit := do
  beginElement name
  addJSONData (if value then ascii "true" else ascii "false")

def addNullElement (name : Option Bytes) : Encode ω Unit := do
  beginElement name
  addJSONData (ascii "null")

def addFloatingPointElement (doubles : Doubles δ) (name : Option Bytes) (value : δ) :
    Encode ω Unit :=
  if doubles.isnan value then addNullElement name
  else do
    beginElement name
    addJSONData (doubles.snprintf value)

def decimal (value : Nat) : Bytes :=
  if value = 0 then ascii "0"
  else ((Nat.digits 10 value).reverse.map fun digit => UInt8.ofNat digit + '0'.toUInt8)

def signedDecimal (value : Int) : Bytes :=
  if value < 0 then ascii "-" ++ decimal value.natAbs else decimal value.natAbs

def addIntegerElement (name : Option Bytes) (value : Int64) : Encode ω Unit := do
  beginElement name
  addJSONData (signedDecimal value.toInt)

def addUIntegerElement (name : Option Bytes) (value : UInt64) : Encode ω Unit := do
  beginElement name
  addJSONData (decimal value.toNat)

def addStringElement (name : Option Bytes) (value : Option Bytes) : Encode ω Unit :=
  match value with
  | none => addNullElement name
  | some value => do
    beginElement name
    addQuotedEscapedString value

def beginStringElement (name : Option Bytes) : Encode ω Unit := do
  beginElement name
  addJSONData (ascii "\"")

def appendStringElement (value : Bytes) : Encode ω Unit := addEscapedString value

def endStringElement : Encode ω Unit := addJSONData (ascii "\"")

def hexNybble (nybble : Nat) : UInt8 :=
  UInt8.ofNat (if nybble < 10 then nybble + 48 else nybble + 55)

def appendDataElement (value : Bytes) : Encode ω Unit :=
  value.forM fun byte => addJSONData [hexNybble (byte.toNat / 16), hexNybble (byte.toNat % 16)]

def addDataElement (name : Option Bytes) (value : Bytes) : Encode ω Unit := do
  beginStringElement name
  appendDataElement value
  endStringElement

/-! Containers. -/

/-- The level rises whether or not the bracket can be written. -/
def beginContainer (isObject : Bool) (bracket : Bytes) (name : Option Bytes) :
    Encode ω Unit := do
  beginElement name
  modify fun context => { context with
    isObject := isObject :: context.isObject
    containerFirstEntry := true
    deepestLevel := max context.deepestLevel (context.containerLevel + 1) }
  addJSONData bracket

def beginArray (name : Option Bytes) : Encode ω Unit := beginContainer false (ascii "[") name

def beginObject (name : Option Bytes) : Encode ω Unit := beginContainer true (ascii "\x7b") name

def endContainer : Encode ω Unit := do
  let context ← get
  match context.isObject with
  | [] => pure ()
  | isObject :: containers =>
    set { context with isObject := containers }
    if context.prettyPrint ∧ ¬context.containerFirstEntry then
      addJSONData (ascii "\n")
      addIndentation containers.length
    modify fun context => { context with containerFirstEntry := false }
    addJSONData (if isObject then ascii "\x7d" else ascii "]")

def beginEncode (prettyPrint : Bool) (handler : Bytes → ω → Bool × ω) (userData : ω) :
    EncodeContext ω where
  handler := handler
  userData := userData
  isObject := []
  containerFirstEntry := true
  prettyPrint := prettyPrint
  deepestLevel := 0

/-- The containers are ended until one of them fails. -/
def endContainers : Nat → Encode ω Unit
  | 0 => pure ()
  | count + 1 => do
    endContainer
    endContainers count

def endEncode : Encode ω Unit := do
  let context ← get
  endContainers context.containerLevel

end SentryCocoa.JSONCodec
