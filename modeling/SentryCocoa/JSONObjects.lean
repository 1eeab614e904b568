import SentryCocoa.JSONDocuments
import SentryCocoa.JSONTruncation

/-! The decoder for Foundation objects. The callbacks add what they are given to the innermost
container that is open. A container is mutable and stands in the one around it as soon as it
begins, so what is decoded before an error is kept. -/
namespace SentryCocoa.JSONObjects
open SentryCocoa.JSONCodec SentryCocoa.Library.Simulation

variable {δ : Type}

/-- An object in a container. Containers are numbered in the order in which they begin. -/
inductive Element (δ : Type) where
  | null
  | boolean (value : Bool)
  | integer (value : Int64)
  | uinteger (value : UInt64)
  | floatingPoint (value : δ)
  | string (value : Bytes)
  | container (index : Nat)
  deriving DecidableEq

inductive Container (δ : Type) where
  | array (values : List (Element δ))
  | dictionary (entries : List (Bytes × Element δ))
  deriving DecidableEq

inductive CodecError where
  | notAllowedAsTopLevelContainer
  | noContainerLeft
  | decode (error : JSONError)
  deriving DecidableEq, Repr

/-- `SentryCrashJSONCodec`, with the containers that it made. An exception leaves the decoder. -/
structure Codec (δ : Type) where
  containers : List (Container δ)
  topLevelContainer : Option Nat
  currentContainer : Option Nat
  containerStack : List Nat
  error : Option CodecError
  isRaised : Bool
  deriving DecidableEq

structure DecodeOptions where
  ignoreNullInArray : Bool
  ignoreNullInObject : Bool
  keepPartialObject : Bool
  deriving DecidableEq, Repr

def Codec.init : Codec δ := ⟨[], none, none, [], none, false⟩

/-- The entry for the key is replaced, or there is a new one. -/
def setValue {α : Type} (entries : List (Bytes × α)) (key : Bytes) (value : α) : List (Bytes × α) :=
  if key ∈ entries.map Prod.fst then
    entries.map fun entry => if entry.1 = key then (key, value) else entry
  else entries ++ [(key, value)]

/-- Bytes that are not UTF-8 are no string. -/
def stringFromCString (string : Bytes) : Option Bytes :=
  if (ByteArray.mk string.toArray).validateUTF8 then some string else none

section Callbacks

variable (options : DecodeOptions)

def fail (error : CodecError) : EStateM JSONError (Codec δ) Unit := do
  modify fun codec => { codec with error := some error }
  throw .invalidData

def raise : EStateM JSONError (Codec δ) Unit := do
  modify fun codec => { codec with isRaised := true }
  throw .invalidData

/-- A dictionary takes no entry without a key, and forgets one without a value; an array takes only
an object. -/
def add (name : Option Bytes) (element : Option (Element δ)) :
    Container δ → Option (Container δ)
  | .array values => element.map fun element => .array (values ++ [element])
  | .dictionary entries => name.map fun key =>
    match element with
    | none => .dictionary (entries.filter fun entry => entry.1 ≠ key)
    | some element => .dictionary (setValue entries key element)

def onElement (name : Option Bytes) (element : Option (Element δ)) :
    EStateM JSONError (Codec δ) Unit := do
  let codec ← get
  match codec.currentContainer with
  | none => fail .notAllowedAsTopLevelContainer
  | some index =>
    match (codec.containers[index]?).bind (add name element) with
    | none => raise
    | some container =>
      set { codec with containers := codec.containers.set index container }

def onBeginContainer (name : Option Bytes) (container : Container δ) :
    EStateM JSONError (Codec δ) Unit := do
  let codec ← get
  let index := codec.containers.length
  set { codec with containers := codec.containers ++ [container] }
  if codec.topLevelContainer = none then
    modify fun codec => { codec with topLevelContainer := some index }
  else onElement name (some (.container index))
  modify fun codec => { codec with
    currentContainer := some index
    containerStack := index :: codec.containerStack }

def ignoresNull : Container δ → Bool
  | .array _ => options.ignoreNullInArray
  | .dictionary _ => options.ignoreNullInObject

def isIgnored (codec : Codec δ) : Bool :=
  (codec.currentContainer.bind (codec.containers[·]?)).any (ignoresNull options)

def onNullElement (name : Option Bytes) : EStateM JSONError (Codec δ) Unit := do
  let codec ← get
  if isIgnored options codec then pure () else onElement name (some .null)

def onEndContainer : EStateM JSONError (Codec δ) Unit := do
  let codec ← get
  match codec.containerStack with
  | [] => fail .noContainerLeft
  | _ :: stack => set { codec with containerStack := stack, currentContainer := stack.head? }

def callback (cName : Option Bytes) (event : Event δ) : EStateM JSONError (Codec δ) Unit :=
  let name := cName.bind stringFromCString
  match event with
  | .booleanElement value => onElement name (some (.boolean value))
  | .floatingPointElement value => onElement name (some (.floatingPoint value))
  | .integerElement value => onElement name (some (.integer value))
  | .uintegerElement value => onElement name (some (.uinteger value))
  | .nullElement => onNullElement options name
  | .stringElement value => onElement name ((stringFromCString value).map .string)
  | .beginObject => onBeginContainer name (.dictionary [])
  | .beginArray => onBeginContainer name (.array [])
  | .endContainer => onEndContainer
  | .endData => pure ()

end Callbacks

def maxStringBufferSize : Nat := 150000

/-- The top level container and the containers, and the error. -/
structure Decoded (δ : Type) where
  topLevelContainer : Option Nat
  containers : List (Container δ)
  error : Option CodecError
  deriving DecidableEq

/-- Absent when an exception is raised. -/
def decodeObject (doubles : Doubles δ) (options : DecodeOptions) (data : Bytes) :
    Option (Decoded δ) :=
  let result := decode doubles (callback options) data (maxStringBufferSize + 1) Codec.init
  let codec := endState result
  let error := match result with
    | .ok _ _ => codec.error
    | .error error _ => codec.error.or (some (.decode error))
  if codec.isRaised then none
  else
    some {
      topLevelContainer := if error.isSome && !options.keepPartialObject then none
        else codec.topLevelContainer
      containers := codec.containers
      error := error }

/-! ### What a document is as an object -/

/-- An object without identity. -/
inductive Object (δ : Type) where
  | leaf (value : Element δ)
  | array (values : List (Object δ))
  | dictionary (entries : List (Bytes × Object δ))

def Leaf.element : Leaf δ → Element δ
  | .null => .null
  | .boolean value => .boolean value
  | .integer value => .integer value
  | .uinteger value => .uinteger value
  | .floatingPoint value => .floatingPoint value
  | .string value => .string value.bytes

def isNull : Document δ → Bool
  | .leaf .null => true
  | _ => false

mutual

def objectOf (options : DecodeOptions) : Document δ → Object δ
  | .leaf value => .leaf (Leaf.element value)
  | .array values => .array (valuesOf options [] values)
  | .object entries => .dictionary (entriesOf options [] entries)

def valuesOf (options : DecodeOptions) (objects : List (Object δ)) :
    List (Document δ) → List (Object δ)
  | [] => objects
  | value :: rest =>
    valuesOf options
      (if options.ignoreNullInArray && isNull value then objects
        else objects ++ [objectOf options value]) rest

def entriesOf (options : DecodeOptions) (objects : List (Bytes × Object δ)) :
    List (PlainString × Document δ) → List (Bytes × Object δ)
  | [] => objects
  | (key, value) :: rest =>
    entriesOf options
      (if options.ignoreNullInObject && isNull value then objects
        else setValue objects key.bytes (objectOf options value)) rest

end

mutual

/-- The element is the object. All containers of the object have the index or a later one. -/
def Holds (containers : List (Container δ)) (base : Nat) : Element δ → Object δ → Prop
  | element, .leaf value => element = value
  | element, .array objects => ∃ index values, element = .container index ∧ base ≤ index ∧
    containers[index]? = some (.array values) ∧ HoldsValues containers base values objects
  | element, .dictionary objects => ∃ index entries, element = .container index ∧ base ≤ index ∧
    containers[index]? = some (.dictionary entries) ∧ HoldsEntries containers base entries objects

def HoldsValues (containers : List (Container δ)) (base : Nat) :
    List (Element δ) → List (Object δ) → Prop
  | values, [] => values = []
  | values, object :: objects => ∃ value rest, values = value :: rest ∧
    Holds containers base value object ∧ HoldsValues containers base rest objects

def HoldsEntries (containers : List (Container δ)) (base : Nat) :
    List (Bytes × Element δ) → List (Bytes × Object δ) → Prop
  | entries, [] => entries = []
  | entries, (key, object) :: objects => ∃ value rest, entries = (key, value) :: rest ∧
    Holds containers base value object ∧ HoldsEntries containers base rest objects

end

end SentryCocoa.JSONObjects
