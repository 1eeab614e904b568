import SentryCocoa.JSONEvents

/-! JSON that is decoded and encoded again as an element of a crash report, from memory and
from a file. -/
namespace SentryCocoa.JSONCodec
open SentryCocoa.Library.Simulation

variable {δ ω ρ : Type}

/-- The callbacks `addJSONFromFile_onBooleanElement` and so on. -/
def addJSONFromFileOn (doubles : Doubles δ) (closeLastContainer : Bool) (name : Option Bytes) :
    Event δ → Encode ω Unit
  | .booleanElement value => addBooleanElement name value
  | .floatingPointElement value => addFloatingPointElement doubles name value
  | .integerElement value => addIntegerElement name value
  | .uintegerElement value => addUIntegerElement name value
  | .nullElement => addNullElement name
  | .stringElement value => addStringElement name (some value)
  | .beginObject => beginObject name
  | .beginArray => beginArray name
  | .endContainer => do
    let context ← get
    if closeLastContainer ∨ context.containerLevel > 2 then endContainer
  | .endData => pure ()

/-- Containers are ended whether or not the brackets can be written. -/
def closeContainers : Nat → Encode ω Unit
  | 0 => pure ()
  | count + 1 => do
    let _ ← failed endContainer
    closeContainers count

/-- What is left open is closed only when the last container is to be closed. -/
def finishElement (closeLastContainer : Bool) (containerLevel : Nat)
    (result : EStateM.Result JSONError (EncodeContext ω) Unit) :
    EStateM.Result JSONError (EncodeContext ω) Unit :=
  let context := endState result
  let context := if closeLastContainer then
      endState (closeContainers (context.containerLevel - containerLevel) context)
    else context
  match result with
  | .ok _ _ => .ok () context
  | .error e _ => .error e context

/-! From memory. -/

def elementBuffers : DecodeBuffers := ⟨100, 5000⟩

/-- Enough fuel for every buffer of the length. -/
def decodeFuel (length : Nat) : Nat := 2 * length + 1

def addJSONElement (doubles : Doubles δ) (name : Option Bytes) (jsonData : Bytes)
    (closeLastContainer : Bool) : Encode ω Unit := fun context =>
  let decode : Encode ω Unit := do
    let _ ← decodeElement doubles elementBuffers
      (memoryCallback (addJSONFromFileOn doubles closeLastContainer))
      (decodeFuel jsonData.length) name jsonData
  finishElement closeLastContainer context.containerLevel (decode context)

def decode {σ : Type} (doubles : Doubles δ)
    (callbacks : Option Bytes → Event δ → EStateM JSONError σ Unit) (data : Bytes)
    (stringBufferLength : Nat) : EStateM JSONError σ Unit := do
  let nameBufferLength := stringBufferLength / 4
  let _ ← decodeElement doubles ⟨nameBufferLength, stringBufferLength - nameBufferLength⟩
    (memoryCallback callbacks) (decodeFuel data.length) none data
  callbacks none .endData

/-! From a file. -/

/-- The whole buffer, as it was when it was last filled, and what was not read yet. -/
structure FileReader where
  fileBuffer : Bytes
  unread : Bytes
  isEOF : Bool

/-- The rest of the buffer moves to its start and the file fills it up. Where the file ends
before, the old contents of the buffer stay behind it. -/
def updateDecoderReadFile (bufferPtr : Bytes) (reader : FileReader) : Bytes × FileReader :=
  if reader.isEOF then (bufferPtr, reader)
  else
    let bufferLength := reader.fileBuffer.length
    let remainingLength := bufferPtr.length
    if remainingLength < bufferLength / 2 then
      let fillLength := bufferLength - remainingLength
      let bytesRead := reader.unread.take fillLength
      let fileBuffer := bufferPtr ++ bytesRead ++
        reader.fileBuffer.drop (remainingLength + bytesRead.length)
      (fileBuffer,
        { fileBuffer := fileBuffer
          unread := reader.unread.drop fillLength
          isEOF := bytesRead.length < fillLength })
    else (bufferPtr, reader)

def fileBuffers : DecodeBuffers := ⟨100, 500⟩

def openFile (file : Bytes) : Bytes × FileReader :=
  updateDecoderReadFile [] ⟨List.replicate 1000 0, file, false⟩

/-- A file that cannot be opened reads like an empty one. -/
def addJSONFromFile (doubles : Doubles δ) (name : Option Bytes) (file : Bytes)
    (closeLastContainer : Bool) : Encode ω Unit := fun context =>
  let decode : EStateM JSONError (FileReader × EncodeContext ω) Bytes :=
    decodeElement doubles fileBuffers
      (fileCallback (addJSONFromFileOn doubles closeLastContainer) updateDecoderReadFile)
      (decodeFuel (file.length + 2000)) name (openFile file).1
  let result := match decode ((openFile file).2, context) with
    | .ok _ context => .ok () context.2
    | .error e context => .error e context.2
  finishElement closeLastContainer context.containerLevel result

/-! The events of a document. -/

/-- The events of an element, with a reader or without. -/
def parseElement (doubles : Doubles δ) (buffers : DecodeBuffers)
    (update : Bytes → ρ → Bytes × ρ) (fuel : Nat) (name : Option Bytes) (bufferPtr : Bytes) :
    Parse ρ δ Bytes :=
  decodeElement doubles buffers (Parse.note update) fuel name bufferPtr

def parseArray (doubles : Doubles δ) (buffers : DecodeBuffers)
    (update : Bytes → ρ → Bytes × ρ) (fuel : Nat) (bufferPtr : Bytes) : Parse ρ δ Bytes :=
  decodeArray doubles buffers (Parse.note update) fuel bufferPtr

def parseObject (doubles : Doubles δ) (buffers : DecodeBuffers)
    (update : Bytes → ρ → Bytes × ρ) (fuel : Nat) (bufferPtr : Bytes) : Parse ρ δ Bytes :=
  decodeObject doubles buffers (Parse.note update) fuel bufferPtr

section

variable (doubles : Doubles δ) (buffers : DecodeBuffers) (update : Bytes → ρ → Bytes × ρ)

theorem Parse.liftExcept_bind {α β : Type} (x : Except JSONError α) (f : α → Parse ρ δ β)
    (reader : ρ) :
    (liftExcept x >>= f : Parse ρ δ β) reader =
      match x with
      | .error e => ([], .error e)
      | .ok a => f a reader := by
  cases x with
  | error e => rfl
  | ok a => exact (Parse.bind_ok (Parse.pure_apply a reader)).trans (by simp)

theorem parseElement_succ (fuel : Nat) (name : Option Bytes) (bufferPtr : Bytes) (reader : ρ) :
    parseElement doubles buffers update (fuel + 1) name bufferPtr reader =
      match skipWhitespace bufferPtr with
      | [] => ([], Except.error .incomplete)
      | c :: rest =>
        if c = '['.toUInt8 then
          let updated := update rest reader
          let array := parseArray doubles buffers update fuel updated.1 updated.2
          (⟨name, .beginArray, rest⟩ :: array.1, array.2)
        else if c = '\x7b'.toUInt8 then
          let updated := update rest reader
          let object := parseObject doubles buffers update fuel updated.1 updated.2
          (⟨name, .beginObject, rest⟩ :: object.1, object.2)
        else
          match decodeScalar doubles buffers.stringBufferLength c rest with
          | .error e => ([], .error e)
          | .ok (event, bufferPtr) =>
            ([⟨name, event, bufferPtr⟩], .ok (update bufferPtr reader)) := by
  rw [parseElement, decodeElement]
  cases skipWhitespace bufferPtr with
  | nil => rfl
  | cons c rest =>
    dsimp only
    split
    · rfl
    · split
      · rfl
      · rw [Parse.liftExcept_bind]
        cases decodeScalar doubles buffers.stringBufferLength c rest with
        | error e => rfl
        | ok found => rfl

theorem parseArray_succ (fuel : Nat) (bufferPtr : Bytes) (reader : ρ) :
    parseArray doubles buffers update (fuel + 1) bufferPtr reader =
      match skipWhitespace bufferPtr with
      | [] => ([], Except.error .incomplete)
      | c :: rest =>
        if c = ']'.toUInt8 then ([⟨none, .endContainer, rest⟩], .ok (update rest reader))
        else
          match parseElement doubles buffers update fuel none (c :: rest) reader with
          | (fired, .error e) => (fired, .error e)
          | (fired, .ok (bufferPtr, reader)) =>
            match skipComma bufferPtr with
            | .error e => (fired, .error e)
            | .ok bufferPtr =>
              let array := parseArray doubles buffers update fuel bufferPtr reader
              (fired ++ array.1, array.2) := by
  rw [parseArray, decodeArray]
  cases skipWhitespace bufferPtr with
  | nil => rfl
  | cons c rest =>
    dsimp only
    split
    · rfl
    · cases helement : parseElement doubles buffers update fuel none (c :: rest) reader with
      | mk fired result =>
        cases result with
        | error e => exact Parse.bind_error helement
        | ok result =>
          obtain ⟨bufferPtr', reader'⟩ := result
          refine (Parse.bind_ok helement).trans ?_
          rw [Parse.liftExcept_bind]
          dsimp only
          cases skipComma bufferPtr' with
          | error e => simp
          | ok bufferPtr'' => rfl

theorem parseObject_succ (fuel : Nat) (bufferPtr : Bytes) (reader : ρ) :
    parseObject doubles buffers update (fuel + 1) bufferPtr reader =
      match skipWhitespace bufferPtr with
      | [] => ([], Except.error .incomplete)
      | c :: rest =>
        if c = '\x7d'.toUInt8 then ([⟨none, .endContainer, rest⟩], .ok (update rest reader))
        else
          match decodeName buffers.nameBufferLength (c :: rest) with
          | .error e => ([], .error e)
          | .ok (name, bufferPtr) =>
            match parseElement doubles buffers update fuel (some name) bufferPtr reader with
            | (fired, .error e) => (fired, .error e)
            | (fired, .ok (bufferPtr, reader)) =>
              match skipComma bufferPtr with
              | .error e => (fired, .error e)
              | .ok bufferPtr =>
                let object := parseObject doubles buffers update fuel bufferPtr reader
                (fired ++ object.1, object.2) := by
  rw [parseObject, decodeObject]
  cases skipWhitespace bufferPtr with
  | nil => rfl
  | cons c rest =>
    dsimp only
    split
    · rfl
    · rw [Parse.liftExcept_bind]
      cases decodeName buffers.nameBufferLength (c :: rest) with
      | error e => rfl
      | ok found =>
        obtain ⟨name, bufferPtr⟩ := found
        dsimp only
        cases helement : parseElement doubles buffers update fuel (some name) bufferPtr
            reader with
        | mk fired result =>
          cases result with
          | error e => exact Parse.bind_error helement
          | ok result =>
            obtain ⟨bufferPtr', reader'⟩ := result
            refine (Parse.bind_ok helement).trans ?_
            rw [Parse.liftExcept_bind]
            dsimp only
            cases skipComma bufferPtr' with
            | error e => simp
            | ok bufferPtr'' => rfl

end

def parseDocument (doubles : Doubles δ) (buffers : DecodeBuffers) (name : Option Bytes)
    (data : Bytes) : List (Fired δ) × Except JSONError (Bytes × Unit) :=
  parseElement doubles buffers Prod.mk (decodeFuel data.length) name data ()

def parseFile (doubles : Doubles δ) (name : Option Bytes) (file : Bytes) :
    List (Fired δ) × Except JSONError (Bytes × FileReader) :=
  parseElement doubles fileBuffers updateDecoderReadFile (decodeFuel (file.length + 2000)) name
    (openFile file).1 (openFile file).2

theorem decodeElement_memory {σ : Type} (doubles : Doubles δ) (buffers : DecodeBuffers)
    (act : Option Bytes → Event δ → EStateM JSONError σ Unit) (fuel : Nat) (name : Option Bytes)
    (bufferPtr : Bytes) :
    decodeElement doubles buffers (memoryCallback act) fuel name bufferPtr =
      Prod.fst <$> outcome act (parseElement doubles buffers Prod.mk fuel name bufferPtr) () := by
  apply (decode_rel doubles buffers (memorySimulation act) _ fuel).1
  intro name event bufferPtr
  change memoryCallback act name event bufferPtr =
    Prod.fst <$> outcome act (Parse.note Prod.mk name event bufferPtr) ()
  rw [outcome_note, memoryCallback, map_bind]
  rfl

theorem decodeElement_file {σ : Type} (doubles : Doubles δ) (buffers : DecodeBuffers)
    (act : Option Bytes → Event δ → EStateM JSONError σ Unit)
    (update : Bytes → ρ → Bytes × ρ) (fuel : Nat) (name : Option Bytes) (bufferPtr : Bytes)
    (reader : ρ) :
    withoutReader
        (decodeElement doubles buffers (fileCallback act update) fuel name bufferPtr) reader =
      outcome act (parseElement doubles buffers update fuel name bufferPtr) reader := by
  apply (decode_rel doubles buffers (fileSimulation act) _ fuel).1
  intro name event bufferPtr reader
  rw [outcome_note]
  funext userData
  cases h : act name event userData with
  | ok _ userData' =>
    rw [run_bind_ok h, withoutReader, fileCallback, h]
    rfl
  | error e userData' =>
    rw [run_bind_error h, withoutReader, fileCallback, h]

/-- The element is the run of the callbacks on the events of its data. -/
theorem addJSONElement_eq (doubles : Doubles δ) (name : Option Bytes) (jsonData : Bytes)
    (closeLastContainer : Bool) (context : EncodeContext ω) :
    addJSONElement doubles name jsonData closeLastContainer context =
      finishElement closeLastContainer context.containerLevel
        ((do
          replay (addJSONFromFileOn doubles closeLastContainer)
            (parseDocument doubles elementBuffers name jsonData).1
          let _ ← liftExcept (parseDocument doubles elementBuffers name jsonData).2) context) := by
  unfold addJSONElement parseDocument
  rw [decodeElement_memory]
  dsimp only
  congr 1
  unfold outcome
  simp only [map_bind, bind_assoc, bind_map_left]

theorem addJSONFromFile_eq (doubles : Doubles δ) (name : Option Bytes) (file : Bytes)
    (closeLastContainer : Bool) (context : EncodeContext ω) :
    addJSONFromFile doubles name file closeLastContainer context =
      finishElement closeLastContainer context.containerLevel
        ((do
          replay (addJSONFromFileOn doubles closeLastContainer) (parseFile doubles name file).1
          let _ ← liftExcept (parseFile doubles name file).2) context) := by
  let act : Option Bytes → Event δ → Encode ω Unit := addJSONFromFileOn doubles closeLastContainer
  have hparse := congrFun (decodeElement_file doubles fileBuffers act updateDecoderReadFile
    (decodeFuel (file.length + 2000)) name (openFile file).1 (openFile file).2) context
  change _ = (replay (addJSONFromFileOn doubles closeLastContainer)
    (parseFile doubles name file).1 >>= fun _ => liftExcept (parseFile doubles name file).2)
      context at hparse
  unfold addJSONFromFile
  dsimp only
  congr 1
  rw [← bind_assoc]
  unfold withoutReader at hparse
  cases hrun : decodeElement doubles fileBuffers
      (fileCallback act updateDecoderReadFile) (decodeFuel (file.length + 2000)) name
      (openFile file).1 ((openFile file).2, context) with
  | ok bufferPtr context' =>
    rw [hrun] at hparse
    rw [run_bind_ok hparse.symm]
    rfl
  | error e context' =>
    rw [hrun] at hparse
    rw [run_bind_error hparse.symm]

end SentryCocoa.JSONCodec
