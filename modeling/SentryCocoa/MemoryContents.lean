import SentryCocoa.JSONDepth
import SentryCocoa.Library.Fuel

/-! What the report says about an address of the process that crashed. Objects are followed from
one to the next, in circles too, until a common limit is used up. The limit is an unbounded
integer. -/
namespace SentryCocoa.MemoryContents
open SentryCocoa.JSONCodec SentryCocoa.Library.Fuel SentryCocoa.Library.Machine
open SentryCocoa.Library.Simulation

abbrev Address := UInt64

/-! The objects of the process. -/

inductive SentryCrashObjCType where
  | unknown | object | cls | block
  deriving DecidableEq, Repr

inductive SentryCrashObjCClassType where
  | string | url | date | array | number | dictionary | exception | unknown
  deriving DecidableEq, Repr

/-- Of the type there is the first character, which is all that is looked at. -/
structure SentryCrashObjCIvar where
  name : Option Bytes
  type : UInt8
  index : Nat

/-- What the introspection says about an address. The value of an instance variable is what was
copied, whatever its size; of an array there is the first object, where there is one. -/
structure Introspection (δ : Type) where
  objectType : Address → SentryCrashObjCType
  className : Address → Bytes
  objectClassName : Address → Bytes
  objectClassType : Address → SentryCrashObjCClassType
  copyStringContents : Address → Option Bytes
  dateContents : Address → δ
  numberAsFloat : Address → δ
  arrayContents : Address → Option Address
  isTaggedPointer : Address → Bool
  taggedPointerPayload : Address → Int64
  isaPointer : Address → Address
  ivarList : Address → List SentryCrashObjCIvar
  ivarValue : Address → Nat → UInt64
  float : UInt32 → δ
  double : UInt64 → δ
  validString : Address → Option Bytes
  length_ivarList : ∀ cls, (ivarList cls).length ≤ 10

/-! The writers. -/

/-- The calls of the encoder so far, and the limit that is left. How many addresses were written
and how many objects were expanded is not in the source. -/
structure Report (δ : Type) where
  limit : Int
  calls : List (Call δ)
  entries : Nat
  expanded : Nat

variable {δ : Type}

/-- There is no result when the fuel runs out. -/
abbrev Write (δ : Type) := StateT (Report δ) Option

def addElement (key : Option Bytes) (event : Event δ) : Write δ Unit :=
  modify fun report => { report with calls := report.calls ++ [.add key event] }

def addString (key value : String) : Write δ Unit :=
  addElement (some (ascii key)) (.stringElement (ascii value))

def beginObject (key : Option Bytes) : Write δ Unit := addElement key .beginObject

def endContainer : Write δ Unit := addElement none .endContainer

/-- `*limit -= count` -/
def spend (count : Nat) : Write δ Unit :=
  modify fun report => { report with limit := report.limit - count }

def countEntry : Write δ Unit := modify fun report => { report with entries := report.entries + 1 }

def countExpanded : Write δ Unit :=
  modify fun report => { report with expanded := report.expanded + 1 }

section

variable (introspection : Introspection δ) (restrictedClasses : List (Option Bytes))
variable (writeMemory : Option Bytes → Address → Write δ Unit)

def writeNSStringContents (key : Option Bytes) (object : Address) : Write δ Unit :=
  match introspection.copyStringContents object with
  | some buffer => addElement key (.stringElement buffer)
  | none => pure ()

def writeURLContents (key : Option Bytes) (object : Address) : Write δ Unit :=
  match introspection.copyStringContents object with
  | some buffer => addElement key (.stringElement buffer)
  | none => pure ()

def writeDateContents (key : Option Bytes) (object : Address) : Write δ Unit :=
  addElement key (.floatingPointElement (introspection.dateContents object))

def writeNumberContents (key : Option Bytes) (object : Address) : Write δ Unit :=
  addElement key (.floatingPointElement (introspection.numberAsFloat object))

/-- Only the first object of an array is written. -/
def writeArrayContents (key : Option Bytes) (object : Address) : Write δ Unit := do
  countExpanded
  match introspection.arrayContents object with
  | some firstObject => writeMemory key firstObject
  | none => pure ()

/-- What is copied for an instance variable is as long as its type. -/
def writeIvar (object : Address) (ivar : SentryCrashObjCIvar) : Write δ Unit :=
  let value := introspection.ivarValue object ivar.index
  if ivar.type = 'c'.toUInt8 then
    addElement ivar.name (.integerElement value.toUInt8.toInt8.toInt64)
  else if ivar.type = 's'.toUInt8 then
    addElement ivar.name (.integerElement value.toUInt16.toInt16.toInt64)
  else if ivar.type ∈ ['i'.toUInt8, 'l'.toUInt8] then
    addElement ivar.name (.integerElement value.toUInt32.toInt32.toInt64)
  else if ivar.type = 'q'.toUInt8 then addElement ivar.name (.integerElement value.toInt64)
  else if ivar.type = 'C'.toUInt8 then
    addElement ivar.name (.uintegerElement value.toUInt8.toUInt64)
  else if ivar.type = 'S'.toUInt8 then
    addElement ivar.name (.uintegerElement value.toUInt16.toUInt64)
  else if ivar.type ∈ ['I'.toUInt8, 'L'.toUInt8] then
    addElement ivar.name (.uintegerElement value.toUInt32.toUInt64)
  else if ivar.type = 'Q'.toUInt8 then addElement ivar.name (.uintegerElement value)
  else if ivar.type = 'f'.toUInt8 then
    addElement ivar.name (.floatingPointElement (introspection.float value.toUInt32))
  else if ivar.type = 'd'.toUInt8 then
    addElement ivar.name (.floatingPointElement (introspection.double value))
  else if ivar.type = 'B'.toUInt8 then
    addElement ivar.name (.booleanElement (value.toUInt8 != 0))
  else if ivar.type ∈ ['*'.toUInt8, '@'.toUInt8, '#'.toUInt8, ':'.toUInt8] then
    writeMemory ivar.name value
  else pure ()

def writeUnknownObjectContents (key : Option Bytes) (object : Address) : Write δ Unit := do
  countExpanded
  spend 1
  beginObject key
  if introspection.isTaggedPointer object then
    addElement (some (ascii "tagged_payload"))
      (.integerElement (introspection.taggedPointerPayload object))
  else
    let ivars := introspection.ivarList (introspection.isaPointer object)
    spend ivars.length
    ivars.forM (writeIvar introspection writeMemory object)
  endContainer

def isRestrictedClass (name : Bytes) : Bool := restrictedClasses.contains (some name)

/-- `if (*limit > 0)` -/
def ifLimit (write : Write δ Unit) : Write δ Unit := do
  if (← get).limit > 0 then write

/-- Whether the address was that of an object that can be written. -/
def writeObjCObject (object : Address) : Write δ Bool := do
  match introspection.objectType object with
  | .cls =>
    addString "type" "objc_class"
    addElement (some (ascii "class")) (.stringElement (introspection.className object))
    return true
  | .object =>
    addString "type" "objc_object"
    let className := introspection.objectClassName object
    addElement (some (ascii "class")) (.stringElement className)
    if isRestrictedClass restrictedClasses className then return false
    match introspection.objectClassType object with
    | .string => writeNSStringContents introspection (some (ascii "value")) object
    | .url => writeURLContents introspection (some (ascii "value")) object
    | .date => writeDateContents introspection (some (ascii "value")) object
    | .array =>
      ifLimit (writeArrayContents introspection writeMemory (some (ascii "first_object")) object)
    | .number => writeNumberContents introspection (some (ascii "value")) object
    | .dictionary | .exception | .unknown =>
      ifLimit (writeUnknownObjectContents introspection writeMemory (some (ascii "ivars")) object)
    return true
  | .block =>
    addString "type" "objc_block"
    addElement (some (ascii "class")) (.stringElement (introspection.objectClassName object))
    return true
  | .unknown => return false

/-- What is written where there is no object. -/
def writeOther (address : Address) : Write δ Unit :=
  if address = 0 then addString "type" "null_pointer"
  else
    match introspection.validString address with
    | some string => do
      addString "type" "string"
      addElement (some (ascii "value")) (.stringElement string)
    | none => addString "type" "unknown"

end

def writeMemoryContents (introspection : Introspection δ)
    (restrictedClasses : List (Option Bytes)) : Nat → Option Bytes → Address → Write δ Unit
  | 0, _, _ => failure
  | fuel + 1, key, address => do
    countEntry
    spend 1
    beginObject key
    addElement (some (ascii "address")) (.uintegerElement address)
    let written ← writeObjCObject introspection restrictedClasses
      (writeMemoryContents introspection restrictedClasses fuel) address
    if !written then writeOther introspection address
    endContainer

/-- `kDefaultMemorySearchDepth` -/
def defaultMemorySearchDepth : Int := 15

/-! Containers that are begun and ended again. -/

def isBegin : Call δ → Bool
  | .add _ .beginObject | .add _ .beginArray => true
  | _ => false

def isEnd : Call δ → Bool
  | .add _ .endContainer => true
  | _ => false

/-- Calls that end what they begin, with so many containers open at most. -/
inductive Nested : Nat → List (Call δ) → Prop
  | nil (depth : Nat) : Nested depth []
  | element {depth : Nat} {name : Option Bytes} {event : Event δ} {rest : List (Call δ)}
      (hbegin : isBegin (.add name event) = false) (hend : isEnd (.add name event) = false)
      (hrest : Nested depth rest) : Nested depth (.add name event :: rest)
  | container {depth : Nat} {name : Option Bytes} {inner rest : List (Call δ)}
      (hinner : Nested depth inner) (hrest : Nested (depth + 1) rest) :
      Nested (depth + 1) (.add name .beginObject :: (inner ++ .add none .endContainer :: rest))

theorem Nested.append {depth : Nat} {first second : List (Call δ)} (h : Nested depth first)
    (h' : Nested depth second) : Nested depth (first ++ second) := by
  induction h with
  | nil depth => exact h'
  | element hbegin hend _ ih => exact .element hbegin hend (ih h')
  | @container depth name inner rest hinner _ _ ih =>
    rw [List.cons_append, List.append_assoc, List.cons_append]
    exact .container hinner (ih h')

theorem Nested.mono {depth depth' : Nat} {calls : List (Call δ)} (h : Nested depth calls)
    (hle : depth ≤ depth') : Nested depth' calls := by
  induction h generalizing depth' with
  | nil depth => exact .nil depth'
  | element hbegin hend _ ih => exact .element hbegin hend (ih hle)
  | container _ _ ih ih' =>
    obtain ⟨depth', rfl⟩ := Nat.exists_eq_add_of_le' (Nat.one_le_of_lt hle)
    exact .container (ih (Nat.le_of_succ_le_succ hle)) (ih' hle)

theorem Nested.countP_eq {depth : Nat} {calls : List (Call δ)} (h : Nested depth calls) :
    calls.countP isBegin = calls.countP isEnd := by
  induction h with
  | nil _ => rfl
  | element hbegin hend _ ih =>
    rw [List.countP_cons_of_neg (by simp [hbegin]), List.countP_cons_of_neg (by simp [hend]), ih]
  | container _ _ ih ih' =>
    rw [List.countP_cons_of_pos rfl, List.countP_append,
      List.countP_cons_of_neg Bool.false_ne_true, ih, ih',
      List.countP_cons_of_neg Bool.false_ne_true, List.countP_append,
      List.countP_cons_of_pos rfl]
    rfl

/-! What the writers do to the report. -/

/-- The limit pays for the objects that are expanded, and each of those for ten addresses. What
is owed on either side is given. -/
structure Wrote (entries objects depth : Nat) (report report' : Report δ) : Prop where
  limit : report'.limit ≤ report.limit
  entries : report'.entries + 10 * report.expanded ≤
    report.entries + 10 * report'.expanded + entries
  expanded : report'.expanded + report'.limit.toNat ≤
    report.expanded + report.limit.toNat + objects
  calls : ∃ calls, report'.calls = report.calls ++ calls ∧ Nested depth calls

theorem Wrote.refl (depth : Nat) (report : Report δ) : Wrote 0 0 depth report report where
  limit := le_rfl
  entries := le_rfl
  expanded := le_rfl
  calls := ⟨[], (List.append_nil _).symm, .nil depth⟩

theorem Wrote.trans {entries entries' objects objects' depth : Nat} {first second third : Report δ}
    (h : Wrote entries objects depth first second)
    (h' : Wrote entries' objects' depth second third) :
    Wrote (entries + entries') (objects + objects') depth first third where
  limit := h'.limit.trans h.limit
  entries := by
    have hle := h.entries
    have hle' := h'.entries
    omega
  expanded := by
    have hle := h.expanded
    have hle' := h'.expanded
    omega
  calls := by
    obtain ⟨calls, hcalls, hnested⟩ := h.calls
    obtain ⟨calls', hcalls', hnested'⟩ := h'.calls
    exact ⟨calls ++ calls', by rw [hcalls', hcalls, List.append_assoc], hnested.append hnested'⟩

theorem Wrote.mono {entries entries' objects objects' depth depth' : Nat}
    {report report' : Report δ} (h : Wrote entries objects depth report report')
    (hentries : entries ≤ entries') (hobjects : objects ≤ objects') (hdepth : depth ≤ depth') :
    Wrote entries' objects' depth' report report' where
  limit := h.limit
  entries := h.entries.trans (Nat.add_le_add_left hentries _)
  expanded := h.expanded.trans (Nat.add_le_add_left hobjects _)
  calls := by
    obtain ⟨calls, hcalls, hnested⟩ := h.calls
    exact ⟨calls, hcalls, hnested.mono hdepth⟩

/-- The report with one more call. -/
def Report.call (report : Report δ) (key : Option Bytes) (event : Event δ) : Report δ :=
  { report with calls := report.calls ++ [.add key event] }

theorem Wrote.element (depth : Nat) (report : Report δ) {key : Option Bytes} {event : Event δ}
    (hbegin : isBegin (.add key event) = false) (hend : isEnd (.add key event) = false) :
    Wrote 0 0 depth report (report.call key event) :=
  { Wrote.refl depth report with calls := ⟨_, rfl, .element hbegin hend (.nil depth)⟩ }

theorem Wrote.container {entries objects depth : Nat} {report report' : Report δ}
    {key : Option Bytes}
    (h : Wrote entries objects depth (report.call key .beginObject) report') :
    Wrote entries objects (depth + 1) report (report'.call none .endContainer) where
  limit := h.limit
  entries := h.entries
  expanded := h.expanded
  calls := by
    obtain ⟨calls, hcalls, hnested⟩ := h.calls
    refine ⟨.add key .beginObject :: (calls ++ [.add none .endContainer]), ?_,
      .container hnested (.nil _)⟩
    rw [Report.call, hcalls]
    simp [Report.call]

/-- An object that is expanded pays for its instance variables and what is in them. -/
theorem Wrote.expand {entries depth : Nat} {limit : Int} {report report' : Report δ}
    (h : Wrote entries 0 depth
      { report with expanded := report.expanded + 1, limit := limit } report')
    (hentries : entries ≤ 10) (hlimit : limit ≤ report.limit) :
    Wrote 0 1 depth report report' where
  limit := h.limit.trans hlimit
  entries := by
    have hle := h.entries
    dsimp only at hle
    omega
  expanded := by
    have hle := h.expanded
    dsimp only at hle
    omega
  calls := h.calls

section

variable (introspection : Introspection δ) (restrictedClasses : List (Option Bytes))
variable {writeMemory writeMemory' : Option Bytes → Address → Write δ Unit}

theorem agree_addElement (depth : Nat) (report : Report δ) {key : Option Bytes} {event : Event δ}
    (hbegin : isBegin (.add key event) = false) (hend : isEnd (.add key event) = false) :
    Agree (addElement key event) (addElement key event) report fun _ report' =>
      Wrote 0 0 depth report report' :=
  agree_modify (Wrote.element depth report hbegin hend)

/-- The writers of what an object refers to agree up to a limit. -/
def Recurs (writeMemory writeMemory' : Option Bytes → Address → Write δ Unit) (limit : Int) :
    Prop :=
  ∀ key address report, report.limit ≤ limit →
    Agree (writeMemory key address) (writeMemory' key address) report fun _ report' =>
      Wrote 1 0 (report.limit.toNat + 1) report report'

theorem Recurs.writeArrayContents {report : Report δ}
    (h : Recurs writeMemory writeMemory' report.limit) (key : Option Bytes) (object : Address) :
    Agree (writeArrayContents introspection writeMemory key object)
      (writeArrayContents introspection writeMemory' key object) report fun _ report' =>
        Wrote 0 1 (report.limit.toNat + 1) report report' := by
  unfold MemoryContents.writeArrayContents
  apply agree_modify_bind
  cases introspection.arrayContents object with
  | none => exact agree_pure (Wrote.expand (Wrote.refl _ _) (Nat.zero_le 10) le_rfl)
  | some firstObject =>
    have hfirst := h key firstObject { report with expanded := report.expanded + 1 } le_rfl
    exact hfirst.imp fun _ _ hwrote => hwrote.expand (by decide) le_rfl

theorem Recurs.mono {limit limit' : Int} (h : Recurs writeMemory writeMemory' limit)
    (hle : limit' ≤ limit) : Recurs writeMemory writeMemory' limit' :=
  fun key address report hlimit => h key address report (hlimit.trans hle)

theorem Recurs.writeIvar {report : Report δ}
    (h : Recurs writeMemory writeMemory' report.limit) (object : Address)
    (ivar : SentryCrashObjCIvar) :
    Agree (writeIvar introspection writeMemory object ivar)
      (writeIvar introspection writeMemory' object ivar) report fun _ report' =>
        Wrote 1 0 (report.limit.toNat + 1) report report' := by
  have hvalue : ∀ event : Event δ, isBegin (.add ivar.name event) = false →
      isEnd (.add ivar.name event) = false →
      Agree (addElement ivar.name event) (addElement ivar.name event) report fun _ report' =>
        Wrote 1 0 (report.limit.toNat + 1) report report' := by
    intro event hbegin hend
    have helement := agree_addElement (report.limit.toNat + 1) report hbegin hend
    exact helement.imp fun _ _ hwrote => hwrote.mono (Nat.zero_le 1) le_rfl le_rfl
  unfold MemoryContents.writeIvar
  dsimp only
  repeat refine agree_ite (fun _ => hvalue _ rfl rfl) fun _ => ?_
  refine agree_ite (fun _ => h ivar.name _ report le_rfl) fun _ => ?_
  exact agree_pure ((Wrote.refl _ report).mono (Nat.zero_le 1) le_rfl le_rfl)

/-- The limit that is left for the instance variables was lowered by one for each of them. -/
theorem Recurs.writeIvars {report : Report δ} (h : Recurs writeMemory writeMemory' report.limit)
    (hlimit : 0 < report.limit) (object : Address) (ivars : List SentryCrashObjCIvar)
    (start : Report δ) (hstart : start.limit = report.limit - 1 - ivars.length) :
    Agree (ivars.forM (MemoryContents.writeIvar introspection writeMemory object))
      (ivars.forM (MemoryContents.writeIvar introspection writeMemory' object)) start
      fun _ report' => Wrote ivars.length 0 report.limit.toNat start report' := by
  have hstep : ∀ ivar ∈ ivars, ∀ (count : Nat) (current : Report δ),
      Wrote count 0 report.limit.toNat start current →
      Agree (MemoryContents.writeIvar introspection writeMemory object ivar)
        (MemoryContents.writeIvar introspection writeMemory' object ivar) current
        fun _ next => Wrote (count + 1) 0 report.limit.toNat start next := by
    intro ivar hivar count current hcurrent
    have hlength := List.length_pos_of_mem hivar
    have hle := hcurrent.limit
    refine ((h.mono (by omega)).writeIvar introspection object ivar).imp fun _ next hnext => ?_
    exact hcurrent.trans (hnext.mono le_rfl le_rfl (by omega))
  have hloop := agree_forM (fun count current => Wrote count 0 report.limit.toNat start current)
    hstep (Wrote.refl _ start)
  rwa [Nat.zero_add] at hloop

theorem Recurs.writeUnknownObjectContents {report : Report δ}
    (h : Recurs writeMemory writeMemory' report.limit) (hlimit : 0 < report.limit)
    (key : Option Bytes) (object : Address) :
    Agree (writeUnknownObjectContents introspection writeMemory key object)
      (writeUnknownObjectContents introspection writeMemory' key object) report fun _ report' =>
        Wrote 0 1 (report.limit.toNat + 1) report report' := by
  unfold MemoryContents.writeUnknownObjectContents
  apply agree_modify_bind
  apply agree_modify_bind
  apply agree_modify_bind
  apply agree_ite
  · intro _
    refine (agree_addElement report.limit.toNat _ rfl rfl).bind fun _ report' hwrote => ?_
    exact agree_modify (hwrote.container.expand (Nat.zero_le 10) (by dsimp only; omega))
  · intro _
    apply agree_modify_bind
    have hivars := h.writeIvars introspection hlimit object
      (introspection.ivarList (introspection.isaPointer object))
      (Report.call
        { report with
          expanded := report.expanded + 1
          limit := report.limit - 1 -
            (introspection.ivarList (introspection.isaPointer object)).length }
        key .beginObject) rfl
    refine hivars.bind fun _ report' hwrote => agree_modify ?_
    exact hwrote.container.expand (introspection.length_ivarList _) (by omega)

/-- A limit that is left is enough for one object. -/
def WroteObject (report report' : Report δ) : Prop :=
  Wrote 0 (min 1 report.limit.toNat) (report.limit + 1).toNat report report'

theorem Wrote.object {report report' : Report δ}
    (h : Wrote 0 0 (report.limit + 1).toNat report report') : WroteObject report report' :=
  h.mono le_rfl (Nat.zero_le _) le_rfl

theorem WroteObject.after {first second third : Report δ}
    (h : Wrote 0 0 (first.limit + 1).toNat first second) (h' : WroteObject second third) :
    WroteObject first third := by
  have hlimit := h.limit
  exact (h.trans (h'.mono le_rfl le_rfl (by omega))).mono le_rfl (by omega) le_rfl

theorem agree_ifLimit {write write' : Write δ Unit} {report : Report δ}
    (h : 0 < report.limit → Agree write write' report fun _ report' =>
      Wrote 0 1 (report.limit.toNat + 1) report report') :
    Agree (ifLimit write) (ifLimit write') report fun _ report' => WroteObject report report' := by
  have hget : Agree get get report fun current final => current = report ∧ final = report :=
    agree_get ⟨rfl, rfl⟩
  apply hget.bind
  rintro _ _ ⟨rfl, rfl⟩
  refine agree_ite (fun hlimit => ?_) fun hlimit => agree_pure (Wrote.refl _ _).object
  refine (h hlimit).imp fun _ _ hwrote => ?_
  exact hwrote.mono le_rfl (by omega) (by omega)

theorem agree_value (report : Report δ) {key : Option Bytes} {event : Event δ}
    (hbegin : isBegin (.add key event) = false) (hend : isEnd (.add key event) = false) :
    Agree (addElement key event) (addElement key event) report fun _ report' =>
      WroteObject report report' :=
  (agree_addElement _ report hbegin hend).imp fun _ _ hwrote => hwrote.object

theorem agree_before {α : Type} {next next' : Write δ α} {report : Report δ} {key : Option Bytes}
    {event : Event δ} (hbegin : isBegin (.add key event) = false)
    (hend : isEnd (.add key event) = false)
    (hnext : ∀ report' : Report δ, report'.limit ≤ report.limit →
      Agree next next' report' fun _ final => WroteObject report' final) :
    Agree (addElement key event >>= fun _ => next) (addElement key event >>= fun _ => next') report
      fun _ final => WroteObject report final := by
  refine (agree_addElement (report.limit + 1).toNat report hbegin hend).bind
    fun _ report' hwrote => ?_
  exact (hnext report' hwrote.limit).imp fun _ _ hobject => hobject.after hwrote

theorem agree_return {write write' : Write δ Unit} {report : Report δ} (written : Bool)
    (h : Agree write write' report fun _ report' => WroteObject report report') :
    Agree (write >>= fun _ => pure written) (write' >>= fun _ => pure written) report
      fun _ report' => WroteObject report report' :=
  h.bind fun _ _ hobject => agree_pure hobject

theorem agree_writeNSStringContents (report : Report δ) (key : Option Bytes) (object : Address) :
    Agree (writeNSStringContents introspection key object)
      (writeNSStringContents introspection key object) report fun _ report' =>
        WroteObject report report' := by
  unfold writeNSStringContents
  cases introspection.copyStringContents object with
  | none => exact agree_pure (Wrote.refl _ _).object
  | some buffer => exact agree_value report rfl rfl

theorem agree_writeObjCObject {report : Report δ}
    (h : 0 < report.limit → Recurs writeMemory writeMemory' report.limit) (object : Address) :
    Agree (writeObjCObject introspection restrictedClasses writeMemory object)
      (writeObjCObject introspection restrictedClasses writeMemory' object) report
      fun _ report' => WroteObject report report' := by
  unfold writeObjCObject
  cases introspection.objectType object with
  | cls =>
    refine agree_before rfl rfl fun first _ => ?_
    exact agree_return true (agree_value first rfl rfl)
  | block =>
    refine agree_before rfl rfl fun first _ => ?_
    exact agree_return true (agree_value first rfl rfl)
  | unknown => exact agree_pure (Wrote.refl _ _).object
  | object =>
    refine agree_before rfl rfl fun first hfirst => agree_before rfl rfl fun second hsecond => ?_
    refine agree_ite (fun _ => agree_pure (Wrote.refl _ _).object) fun _ => ?_
    have hrecurs : 0 < second.limit → Recurs writeMemory writeMemory' second.limit :=
      fun hlimit => (h (by omega)).mono (hsecond.trans hfirst)
    have hunknown := agree_return true (agree_ifLimit fun hlimit =>
      (hrecurs hlimit).writeUnknownObjectContents introspection hlimit (some (ascii "ivars"))
        object)
    cases introspection.objectClassType object with
    | string =>
      exact agree_return true
        (agree_writeNSStringContents introspection second (some (ascii "value")) object)
    | url =>
      exact agree_return true
        (agree_writeNSStringContents introspection second (some (ascii "value")) object)
    | date => exact agree_return true (agree_value second rfl rfl)
    | array =>
      exact agree_return true (agree_ifLimit fun hlimit =>
        (hrecurs hlimit).writeArrayContents introspection (some (ascii "first_object")) object)
    | number => exact agree_return true (agree_value second rfl rfl)
    | dictionary => exact hunknown
    | exception => exact hunknown
    | unknown => exact hunknown

theorem agree_writeOther (depth : Nat) (report : Report δ) (address : Address) :
    Agree (writeOther introspection address) (writeOther introspection address) report
      fun _ report' => Wrote 0 0 depth report report' := by
  unfold writeOther
  refine agree_ite (fun _ => agree_addElement depth report rfl rfl) fun _ => ?_
  cases introspection.validString address with
  | none => exact agree_addElement depth report rfl rfl
  | some string =>
    refine (agree_addElement depth report rfl rfl).bind fun _ first hfirst => ?_
    exact (agree_addElement depth first rfl rfl).imp fun _ _ hwrote => hfirst.trans hwrote

/-- The report when an address is begun. -/
def Report.beginAddress (report : Report δ) (key : Option Bytes) : Report δ :=
  Report.call { report with entries := report.entries + 1, limit := report.limit - 1 } key
    .beginObject

/-- An address pays for itself, and for the object that may be there. -/
theorem Wrote.address {report report' : Report δ} {key : Option Bytes}
    (h : WroteObject (report.beginAddress key) report') :
    Wrote 1 0 (report.limit.toNat + 1) report (report'.call none .endContainer) := by
  have hdepth : (report.limit - 1 + 1).toNat = report.limit.toNat := by rw [Int.sub_add_cancel]
  have hcontainer := Wrote.container h
  refine ⟨?_, ?_, ?_, ?_⟩
  · have hle := hcontainer.limit
    dsimp only at hle
    omega
  · have hle := hcontainer.entries
    dsimp only at hle
    omega
  · have hle := hcontainer.expanded
    dsimp only [Report.call, Report.beginAddress] at hle ⊢
    omega
  · have hcalls := hcontainer.calls
    dsimp only [Report.call, Report.beginAddress] at hcalls ⊢
    rwa [hdepth] at hcalls

/-- Where the fuel is more than the limit, it makes no difference. -/
theorem agree_writeMemoryContents (fuel fuel' : Nat) (key : Option Bytes) (address : Address)
    (report : Report δ) (h : report.limit.toNat < fuel) (h' : report.limit.toNat < fuel') :
    Agree (writeMemoryContents introspection restrictedClasses fuel key address)
      (writeMemoryContents introspection restrictedClasses fuel' key address) report
      fun _ report' => Wrote 1 0 (report.limit.toNat + 1) report report' := by
  induction fuel generalizing fuel' key address report with
  | zero => exact absurd h (Nat.not_lt_zero _)
  | succ fuel ih =>
    cases fuel' with
    | zero => exact absurd h' (Nat.not_lt_zero _)
    | succ fuel' =>
      apply agree_modify_bind
      apply agree_modify_bind
      apply agree_modify_bind
      change Agree _ _ (report.beginAddress key) _
      refine (agree_addElement (report.limit - 1 + 1).toNat (report.beginAddress key) rfl
        rfl).bind fun _ first hfirst => ?_
      have hlimit : first.limit ≤ report.limit - 1 := hfirst.limit
      have hrecurs : 0 < first.limit →
          Recurs (writeMemoryContents introspection restrictedClasses fuel)
            (writeMemoryContents introspection restrictedClasses fuel') first.limit := by
        intro hpos key address next hnext
        exact ih fuel' key address next (by omega) (by omega)
      refine (agree_writeObjCObject introspection restrictedClasses hrecurs address).bind
        fun written second hsecond => ?_
      have hobject : WroteObject (report.beginAddress key) second := hsecond.after hfirst
      refine agree_ite (fun _ => ?_) fun _ => agree_modify (Wrote.address hobject)
      refine (agree_writeOther introspection (report.limit - 1 + 1).toNat second address).bind
        fun _ third hthird => agree_modify ?_
      have hboth : WroteObject (report.beginAddress key) third := Wrote.trans hobject hthird
      exact Wrote.address hboth

end

/-! What the encoder makes of the calls. -/

section

variable {ω : Type} (doubles : Doubles δ)

theorem isObject_endContainer (context : EncodeContext ω) :
    (endState (JSONCodec.endContainer context)).isObject = context.isObject.tail ∧
      (endState (JSONCodec.endContainer context)).deepestLevel = context.deepestLevel := by
  cases hobject : context.isObject with
  | nil =>
    rw [endContainer_nil context hobject]
    exact ⟨hobject, rfl⟩
  | cons isObject containers =>
    have hquiet := (writesAt_closing (context.prettyPrint && !context.containerFirstEntry)
      isObject containers.length { context with isObject := containers }).quiet
    rw [endContainer_cons context isObject containers hobject]
    exact ⟨hquiet.isObject, hquiet.deepestLevel⟩

/-- The containers up to a level, and no further ones than there is room for. -/
structure Holds (level : Nat) (context : EncodeContext ω) : Prop where
  containerLevel : context.containerLevel ≤ level
  reached : context.containerLevel ≤ context.deepestLevel
  inBounds : InBounds context

/-- The containers that one mark at most leaves. -/
theorem Holds.follows {level level' : Nat} {mark : Mark} {function : Encode ω Unit}
    {context : EncodeContext ω} (h : Holds level context) (hfollows : Follows [mark] function)
    (hlevel : level ≤ level')
    (hmark : ∀ containers, markStep context.isObject mark = some containers →
      containers.length ≤ level')
    (hdeepest : deepest context.deepestLevel context.isObject [mark] < 200) :
    Holds level' (endState (function context)) := by
  obtain ⟨taken, htaken⟩ := hfollows context
  have hwithin := htaken.within h.reached
  refine ⟨?_, hwithin.level, hwithin.bound.trans_lt hdeepest⟩
  have hcontainers := htaken.containers
  rcases List.prefix_cons_iff.1 htaken.initial with hnil | ⟨rest, hcons, hrest⟩
  · rw [hnil, exec_nil, Option.some_inj] at hcontainers
    rw [EncodeContext.containerLevel, ← hcontainers]
    exact h.containerLevel.trans hlevel
  · rw [hcons, List.prefix_nil.1 hrest, exec_single] at hcontainers
    exact hmark _ hcontainers

theorem Holds.element {level : Nat} {name : Option Bytes} {value : Bytes}
    {function : Encode ω Unit} {context : EncodeContext ω} (h : Holds level context)
    (hfollows : Follows [.element name value] function) :
    Holds level (endState (function context)) := by
  refine h.follows hfollows le_rfl (fun containers hcontainers => ?_) ?_
  · rw [markStep, Option.ite_none_right_eq_some, Option.some_inj] at hcontainers
    rw [← hcontainers.2]
    exact h.containerLevel
  · have hsame : deepest context.deepestLevel context.isObject [.element name value] =
        context.deepestLevel := by
      unfold deepest
      split <;> rfl
    rw [hsame]
    exact h.inBounds

theorem Holds.add {level : Nat} {name : Option Bytes} {event : Event δ}
    {context : EncodeContext ω} (h : Holds level context)
    (hbegin : isBegin (.add name event) = false) (hend : isEnd (.add name event) = false) :
    Holds level (endState ((Call.add name event).run doubles context)) := by
  have hfollows : Follows (event.marks true name) (Call.run doubles (.add name event) :
      Encode ω Unit) := follows_addJSONFromFileOn doubles true name event
  cases event with
  | beginObject => cases hbegin
  | beginArray => cases hbegin
  | endContainer => cases hend
  | endData => exact h
  | _ => exact h.element hfollows

theorem Holds.beginObject {level : Nat} {name : Option Bytes} {context : EncodeContext ω}
    (h : Holds level context) (hroom : level + 1 < 200) :
    Holds (level + 1)
      (endState ((Call.add name .beginObject : Call δ).run doubles context)) := by
  have hlevel := h.containerLevel
  have hbound := h.inBounds
  unfold EncodeContext.containerLevel at hlevel
  refine h.follows (follows_addJSONFromFileOn doubles true name .beginObject) (Nat.le_succ level)
    (fun containers hcontainers => ?_) ?_
  · rw [markStep, Option.ite_none_right_eq_some, Option.some_inj] at hcontainers
    rw [← hcontainers.2, List.length_cons]
    exact Nat.succ_le_succ hlevel
  · unfold InBounds at hbound
    unfold deepest
    split
    · unfold deepest
      omega
    · exact hbound

theorem Holds.endContainer {level : Nat} {name : Option Bytes} {context : EncodeContext ω}
    (h : Holds (level + 1) context) :
    Holds level
      (endState ((Call.add name .endContainer : Call δ).run doubles context)) := by
  have hend : Call.run doubles (.add name .endContainer) context =
      JSONCodec.endContainer context := by
    unfold Call.run addJSONFromFileOn
    simp only [true_or, if_true]
    rfl
  obtain ⟨hobject, hdeepest⟩ := isObject_endContainer context
  have hlevel := h.containerLevel
  have hreached := h.reached
  unfold EncodeContext.containerLevel at hlevel hreached
  rw [hend]
  refine ⟨?_, ?_, ?_⟩
  · rw [EncodeContext.containerLevel, hobject, List.length_tail]
    omega
  · rw [EncodeContext.containerLevel, hobject, List.length_tail, hdeepest]
    omega
  · rw [InBounds, hdeepest]
    exact h.inBounds

/-- Nested calls stay within the room that they need, and leave the level as it was or lower. -/
theorem Nested.always {depth level : Nat} {calls : List (Call δ)} (h : Nested depth calls)
    {context : EncodeContext ω} (hholds : Holds level context) (hroom : level + depth < 200) :
    Always (callStep doubles) InBounds context calls ∧
      ∀ context', exec (callStep doubles) context calls = some context' →
        Holds level context' := by
  induction h generalizing level context with
  | nil depth =>
    refine ⟨hholds.inBounds, fun context' hrun => ?_⟩
    cases hrun
    exact hholds
  | @element depth name event rest hbegin hend _ ih =>
    have hnext := ih (hholds.add doubles hbegin hend) hroom
    exact ⟨⟨hholds.inBounds, fun _ hstep => Option.some.inj hstep ▸ hnext.1⟩, hnext.2⟩
  | @container depth name inner rest _ _ ih ih' =>
    have hbegun := @Holds.beginObject δ ω doubles level name context hholds (by omega)
    obtain ⟨hinner, hleft⟩ := ih hbegun (by omega)
    refine ⟨⟨hholds.inBounds, fun _ hstep => Option.some.inj hstep ▸ hinner.append ?_⟩, ?_⟩
    · intro second hrun
      have hsecond := hleft second hrun
      refine ⟨hsecond.inBounds, fun _ hstep => Option.some.inj hstep ▸ ?_⟩
      exact (ih' (hsecond.endContainer doubles) hroom).1
    · intro context' hrun
      obtain ⟨first, hfirst, hrun⟩ := exec_cons_eq_some.1 hrun
      rw [exec_append] at hrun
      obtain ⟨second, hsecond, hrun⟩ := Option.bind_eq_some_iff.1 hrun
      obtain ⟨third, hthird, hrun⟩ := exec_cons_eq_some.1 hrun
      cases hfirst
      cases hthird
      exact (ih' ((hleft second hsecond).endContainer doubles) hroom).2 context' hrun

end

section

variable (introspection : Introspection δ) (restrictedClasses : List (Option Bytes))

/-- However the objects refer to each other, the limit bounds what is written. The encoder has
room for it where 183 containers are open at most; the report writer has opened five. -/
theorem writeMemoryContents_bounded (key : Option Bytes) (address : Address) (limit : Int) :
    ∃ report : Report δ,
      (∀ fuel, limit.toNat < fuel →
        writeMemoryContents introspection restrictedClasses fuel key address ⟨limit, [], 0, 0⟩ =
          some ((), report)) ∧
      report.calls.countP isBegin = report.calls.countP isEnd ∧
      Nested (limit.toNat + 1) report.calls ∧
      report.expanded ≤ limit.toNat ∧ report.entries ≤ 1 + 10 * limit.toNat ∧
      (limit = defaultMemorySearchDepth →
        ∀ {ω : Type} (doubles : Doubles δ) (context : EncodeContext ω), Holds 183 context →
          Always (callStep doubles) InBounds context report.calls) := by
  obtain ⟨_, report, hresult, hwrote⟩ := exists_result fun fuel fuel' hfuel hfuel' =>
    agree_writeMemoryContents introspection restrictedClasses fuel fuel' key address
      ⟨limit, [], 0, 0⟩ hfuel hfuel'
  obtain ⟨calls, hcalls, hnested⟩ := hwrote.calls
  have hentries := hwrote.entries
  have hexpanded := hwrote.expanded
  dsimp only [List.nil_append] at hcalls hnested hentries hexpanded
  rw [← hcalls] at hnested
  refine ⟨report, hresult, hnested.countP_eq, hnested, by omega, by omega, ?_⟩
  rintro rfl ω doubles context hholds
  exact (hnested.always doubles hholds (by decide)).1

end

/-- Every address is that of an object with one instance variable, which refers to itself. -/
def circle : Introspection Unit where
  objectType _ := .object
  className _ := ascii "Node"
  objectClassName _ := ascii "Node"
  objectClassType _ := .unknown
  copyStringContents _ := none
  dateContents _ := ()
  numberAsFloat _ := ()
  arrayContents _ := none
  isTaggedPointer _ := false
  taggedPointerPayload _ := 0
  isaPointer _ := 0
  ivarList _ := [⟨some (ascii "next"), '@'.toUInt8, 0⟩]
  ivarValue object _ := object
  float _ := ()
  double _ := ()
  validString _ := none
  length_ivarList _ := by decide

example : ((writeMemoryContents circle [] 16 none 8 ⟨15, [], 0, 0⟩).map fun result =>
    (result.2.entries, result.2.expanded, result.2.limit)) = some (6, 5, -1) := by decide +kernel

end SentryCocoa.MemoryContents
