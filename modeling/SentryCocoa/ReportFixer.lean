import Mathlib.Algebra.Group.Int.Defs
import Mathlib.Algebra.Ring.Nat
import SentryCocoa.JSONBuffers
import SentryCocoa.Library.Calendar

/-! The fixer of the crash reports. It decodes a report and encodes it again, and on the way it
writes the timestamps as dates. Where an element stands is known from the names of the
containers around it, which are compared with fixed paths. -/
namespace SentryCocoa.ReportFixer
open JSONCodec Library.Calendar Library.Simulation

variable {δ : Type}

def MAX_DEPTH : Nat := 100

def MAX_NAME_LENGTH : Nat := 100

def SentryCrashMAX_STRINGBUFFERSIZE : Nat := 150000

/-- The entries in front of the NULL that ends a path. -/
def datePaths : List (List Bytes) :=
  [[[], ascii "report", ascii "timestamp"],
    [[], ascii "recrash_report", ascii "report", ascii "timestamp"]]

/-! The dates. -/

structure Tm where
  tmYear : Int
  tmMon : Int
  tmMday : Int
  tmHour : Int
  tmMin : Int
  tmSec : Int

/-- The function fails where the year does not fit in an `int`. -/
def gmtimeR (timestamp : Int64) : Option Tm :=
  let date := dateOfDay (timestamp.toInt / 86400)
  let second := timestamp.toInt % 86400
  let tmYear := date.year - 1900
  if -2 ^ 31 ≤ tmYear ∧ tmYear < 2 ^ 31 then
    some ⟨tmYear, date.month - 1, date.day, second / 3600, second / 60 % 60, second % 60⟩
  else none

/-- A conversion such as `%04d`; the sign counts to the width. -/
def paddedDecimal (width : Nat) (value : Int) : Bytes :=
  if value < 0 then ascii "-" ++ (decimal value.natAbs).leftpad (width - 1) '0'.toUInt8
  else (decimal value.natAbs).leftpad width '0'.toUInt8

def dateText (tm : Tm) : Bytes :=
  paddedDecimal 4 (tm.tmYear + 1900) ++ ascii "-" ++ paddedDecimal 2 (tm.tmMon + 1) ++
    ascii "-" ++ paddedDecimal 2 tm.tmMday ++ ascii "T" ++ paddedDecimal 2 tm.tmHour ++
    ascii ":" ++ paddedDecimal 2 tm.tmMin ++ ascii ":" ++ paddedDecimal 2 tm.tmSec ++ ascii "Z"

/-- The buffer has room for 20 characters and the NUL. -/
def utcStringFromTimestamp (timestamp : Int64) : Bytes :=
  (dateText ((gmtimeR timestamp).getD ⟨0, 0, 0, 0, 0, 0⟩)).take 20

/-! The context. -/

/-- The text from the start of the buffer up to `outputPtr`. -/
structure Output where
  text : Bytes
  outputBytesLeft : Nat

def addJSONData (data : Bytes) (output : Output) : Bool × Output :=
  if data.length > output.outputBytesLeft then (false, output)
  else (true, ⟨output.text ++ data, output.outputBytesLeft - data.length⟩)

structure FixupContext where
  encodeContext : EncodeContext Output
  objectPath : List Bytes
  currentDepth : Nat

/-- What the comparison of a path reads that it may not read: an entry of the path behind the
last one, or an entry of the object path behind the current depth. -/
inductive PathFault where
  | path | objectPath
  deriving DecidableEq

inductive Stop where
  | error (e : JSONError)
  | fault (fault : PathFault)

abbrev Fixup := EStateM Stop FixupContext

instance : MonadExceptOf JSONError Fixup where
  throw e := fun context => .error (.error e) context
  tryCatch x handle := fun context =>
    match x context with
    | .error (.error e) context => handle e context
    | result => result

def Output.start (fixedReportLength : Nat) : Output := ⟨[], fixedReportLength⟩

def FixupContext.start (fixedReportLength : Nat) : FixupContext where
  encodeContext := beginEncode true addJSONData (Output.start fixedReportLength)
  objectPath := List.replicate MAX_DEPTH []
  currentDepth := 0

/-- The function is called, and its result is kept to be returned later. -/
def attempt (function : Encode Output Unit) : Fixup (Option JSONError) := fun context =>
  match function context.encodeContext with
  | .ok _ encodeContext => .ok none { context with encodeContext := encodeContext }
  | .error e encodeContext => .ok (some e) { context with encodeContext := encodeContext }

def returnResult (result : Option JSONError) : Fixup Unit :=
  match result with
  | none => pure ()
  | some e => throw e

def encode (function : Encode Output Unit) : Fixup Unit := attempt function >>= returnResult

/-! The paths. -/

/-- The name as far as there is room for it. -/
def cutName (name : Bytes) : Bytes := name.take MAX_NAME_LENGTH

def increaseDepth (name : Option Bytes) : Fixup Bool := do
  let context ← get
  if context.currentDepth ≥ MAX_DEPTH then pure false
  else
    set { context with
      objectPath := context.objectPath.set context.currentDepth (cutName (name.getD []))
      currentDepth := context.currentDepth + 1 }
    pure true

def decreaseDepth : Fixup Bool := do
  let context ← get
  if context.currentDepth ≤ 0 then pure false
  else
    set { context with currentDepth := context.currentDepth - 1 }
    pure true

def FixupContext.objectPathAt (context : FixupContext) (i : Nat) : Except PathFault Bytes :=
  if i < context.currentDepth ∧ i < MAX_DEPTH then pure (context.objectPath.getD i [])
  else throw .objectPath

def pathAt (path : List Bytes) (i : Nat) : Except PathFault Bytes :=
  match path[i]? with
  | some entry => pure entry
  | none => throw .path

/-- The comparison of so many entries, from one on. -/
def matchesEntries (context : FixupContext) (path : List Bytes) :
    Nat → Nat → Except PathFault Bool
  | _, 0 => pure true
  | i, count + 1 => do
    let name ← context.objectPathAt i
    let entry ← pathAt path i
    if cutName name ≠ cutName entry then pure false
    else matchesEntries context path (i + 1) count

def matchesPath (context : FixupContext) (path : List Bytes) (finalName : Option Bytes) :
    Except PathFault Bool := do
  if ← matchesEntries context path 0 context.currentDepth then
    let entry ← pathAt path context.currentDepth
    pure (decide (cutName (finalName.getD []) = cutName entry))
  else pure false

def matchesAPath (context : FixupContext) (name : Option Bytes) :
    List (List Bytes) → Except PathFault Bool
  | [] => pure false
  | path :: paths => do
    if ← matchesPath context path name then pure true
    else matchesAPath context name paths

def shouldFixDate (name : Option Bytes) : Fixup Bool := fun context =>
  match matchesAPath context name datePaths with
  | .ok result => .ok result context
  | .error fault => .error (.fault fault) context

/-! The callbacks. -/

def onIntegerElement (name : Option Bytes) (value : Int64) : Fixup Unit := do
  if ← shouldFixDate name then
    encode (addStringElement name (some (utcStringFromTimestamp value)))
  else encode (addIntegerElement name value)

/-- The depth is increased even when the container could not be written. -/
def onBeginContainer (begin : Encode Output Unit) (name : Option Bytes) : Fixup Unit := do
  let result ← attempt begin
  if ¬(← increaseDepth name) then throw JSONError.dataTooLong
  else returnResult result

def onEndContainer : Fixup Unit := do
  let result ← attempt endContainer
  let _ ← decreaseDepth
  returnResult result

def callbacks (doubles : Doubles δ) (name : Option Bytes) : Event δ → Fixup Unit
  | .booleanElement value => encode (addBooleanElement name value)
  | .floatingPointElement value => encode (addFloatingPointElement doubles name value)
  | .integerElement value => onIntegerElement name value
  | .uintegerElement value => encode (addUIntegerElement name value)
  | .nullElement => encode (addNullElement name)
  | .stringElement value => encode (addStringElement name (some value))
  | .beginObject => onBeginContainer (beginObject name) name
  | .beginArray => onBeginContainer (beginArray name) name
  | .endContainer => onEndContainer
  | .endData => encode endEncode

/-! The report. -/

def fixupBuffers : DecodeBuffers :=
  ⟨SentryCrashMAX_STRINGBUFFERSIZE / 4,
    SentryCrashMAX_STRINGBUFFERSIZE - SentryCrashMAX_STRINGBUFFERSIZE / 4⟩

/-- A callback, which leaves the buffer of the decoder where it is. -/
def decoderCallback (doubles : Doubles δ) (name : Option Bytes) (event : Event δ)
    (bufferPtr : Bytes) : Fixup Bytes := do
  callbacks doubles name event
  return bufferPtr

def decodeReport (doubles : Doubles δ) (crashReport : Bytes) : Fixup Unit := do
  let _ ← decodeElement doubles fixupBuffers (decoderCallback doubles)
    (decodeFuel crashReport.length) none crashReport
  callbacks doubles none .endData

inductive MemoryFault where
  | comparison (fault : PathFault)
  | terminator
  deriving DecidableEq

/-- One and a half times the length of the report. -/
def fixedReportLength (crashReport : Bytes) : Nat := crashReport.length * 3 / 2

/-- The result is `none` where the source returns NULL. The text is terminated also when it is
thrown away. -/
def fixupCrashReport (doubles : Doubles δ) (crashReport : Bytes) :
    Except MemoryFault (Option Bytes) :=
  match decodeReport doubles crashReport
      (FixupContext.start (fixedReportLength crashReport)) with
  | .error (.fault fault) _ => throw (.comparison fault)
  | .error (.error _) context =>
    if context.encodeContext.userData.text.length < fixedReportLength crashReport then pure none
    else throw .terminator
  | .ok _ context =>
    if context.encodeContext.userData.text.length < fixedReportLength crashReport then
      pure (some context.encodeContext.userData.text)
    else throw .terminator

end SentryCocoa.ReportFixer
