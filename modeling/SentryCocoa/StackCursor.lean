import Mathlib.Data.Nat.Digits.Defs
import SentryCocoa.CrashMemory

/-! The stack of a thread whose registers are known. The cursor starts at the instruction
pointer, goes on with the link register, and then follows the frames in memory. -/
namespace SentryCocoa.StackCursor
open SentryCocoa.CrashMemory

/-! The registers. -/

inductive CPU where
  | arm | arm64 | arm64_32 | x86_32 | x86_64
  deriving DecidableEq, Repr

structure MachineContext where
  pc : Nat
  lr : Nat
  fp : Nat

namespace CPU

/-- `sizeof(uintptr_t)` -/
def pointerSize : CPU → Nat
  | .arm64 | .x86_64 => 8
  | .arm | .arm64_32 | .x86_32 => 4

def instructionAddress (_ : CPU) (context : MachineContext) : Nat := context.pc

/-- Only some have the register. -/
def linkRegister : CPU → MachineContext → Nat
  | .arm, context | .arm64, context | .arm64_32, context => context.lr
  | .x86_32, _ | .x86_64, _ => 0

def framePointer (_ : CPU) (context : MachineContext) : Nat := context.fp

/-- `KSPACStrippingMask_ARM64e` -/
def strippingMask : Nat := 0x0000000fffffffff

def normaliseInstructionPointer : CPU → Nat → Nat
  | .arm64, ip | .arm64_32, ip => ip &&& strippingMask
  | .arm, ip | .x86_32, ip | .x86_64, ip => ip

end CPU

/-! The frames. -/

structure FrameEntry where
  previous : Nat
  return_address : Nat
  deriving DecidableEq

/-- `vm_read_overwrite`. It reports no bytes where it cannot read all of them. -/
structure ReadOverwrite (memory : Memory) extends CopySafely memory where
  unreadable : ∀ pSrc dst pDst byteCount, ¬ memory.ReadableRange pSrc byteCount →
    (call pSrc dst pDst byteCount).1 = 0

def ReadOverwrite.allOrNothing (memory : Memory) : ReadOverwrite memory where
  toCopySafely := CopySafely.allOrNothing memory
  unreadable := by
    intro pSrc dst pDst byteCount hread
    simp [CopySafely.allOrNothing, hread]

/-- A pointer, with the lowest byte first. -/
def word (pointerSize : Nat) (bytes : Buffer) (address : Nat) : Nat :=
  Nat.ofDigits 256 ((List.range pointerSize).map fun i => (bytes (address + i)).toNat)

namespace FrameEntry

def ofBytes (pointerSize : Nat) (bytes : Buffer) (address : Nat) : FrameEntry :=
  ⟨word pointerSize bytes address, word pointerSize bytes (address + pointerSize)⟩

def bytes (pointerSize : Nat) (frame : FrameEntry) : Buffer := fun i =>
  if i < pointerSize then UInt8.ofNat (frame.previous / 256 ^ i)
  else UInt8.ofNat (frame.return_address / 256 ^ (i - pointerSize))

end FrameEntry

/-! The cursor. -/

structure SentryCrashStackEntry where
  address : Nat
  imageName : Option String
  imageAddress : Nat
  symbolName : Option String
  symbolAddress : Nat

structure SentryCrashStackCursor where
  stackEntry : SentryCrashStackEntry
  currentDepth : Int
  hasGivenUp : Bool
  machineContext : MachineContext
  maxStackDepth : Int
  currentFrame : FrameEntry
  instructionAddress : Nat
  linkRegister : Nat
  isPastFramePointer : Bool

namespace SentryCrashStackCursor

variable (cpu : CPU) {memory : Memory} (copySafely : ReadOverwrite memory)

def successfulExit (cursor : SentryCrashStackCursor) (nextAddress : Nat) :
    Bool × SentryCrashStackCursor :=
  (true,
    { cursor with
      stackEntry :=
        { cursor.stackEntry with address := cpu.normaliseInstructionPointer nextAddress }
      currentDepth := cursor.currentDepth + 1 })

def copyFrame (cursor : SentryCrashStackCursor) : Bool × SentryCrashStackCursor :=
  let (copied, bytes) := copySafely.call cursor.currentFrame.previous
    (cursor.currentFrame.bytes cpu.pointerSize) 0 (2 * cpu.pointerSize)
  (copied ≠ 0, { cursor with currentFrame := .ofBytes cpu.pointerSize bytes 0 })

def nextFrame (cursor : SentryCrashStackCursor) : Bool × SentryCrashStackCursor :=
  match cursor.copyFrame cpu copySafely with
  | (false, cursor) => (false, cursor)
  | (true, cursor) =>
    if cursor.currentFrame.previous = 0 ∨ cursor.currentFrame.return_address = 0 then
      (false, cursor)
    else cursor.successfulExit cpu cursor.currentFrame.return_address

def advanceFrame (cursor : SentryCrashStackCursor) : Bool × SentryCrashStackCursor :=
  if cursor.currentFrame.previous = 0 then
    if cursor.isPastFramePointer then (false, cursor)
    else
      nextFrame cpu copySafely
        { cursor with
          currentFrame :=
            { cursor.currentFrame with previous := cpu.framePointer cursor.machineContext }
          isPastFramePointer := true }
  else nextFrame cpu copySafely cursor

def advanceCursor (cursor : SentryCrashStackCursor) : Bool × SentryCrashStackCursor :=
  if cursor.currentDepth ≥ cursor.maxStackDepth then (false, { cursor with hasGivenUp := true })
  else if cursor.instructionAddress = 0 then
    let cursor :=
      { cursor with instructionAddress := cpu.instructionAddress cursor.machineContext }
    if cursor.instructionAddress = 0 then (false, cursor)
    else cursor.successfulExit cpu cursor.instructionAddress
  else if cursor.linkRegister = 0 ∧ cursor.isPastFramePointer = false then
    let cursor := { cursor with linkRegister := cpu.linkRegister cursor.machineContext }
    if cursor.linkRegister ≠ 0 then cursor.successfulExit cpu cursor.linkRegister
    else cursor.advanceFrame cpu copySafely
  else cursor.advanceFrame cpu copySafely

def resetCursor (cursor : SentryCrashStackCursor) : SentryCrashStackCursor :=
  { cursor with
    currentDepth := 0
    hasGivenUp := false
    stackEntry := ⟨0, none, 0, none, 0⟩
    currentFrame := ⟨0, 0⟩
    instructionAddress := 0
    linkRegister := 0
    isPastFramePointer := false }

/-- The cursor is a place in memory that nothing was written to yet. -/
def initWithMachineContext (cursor : SentryCrashStackCursor) (maxStackDepth : Int)
    (machineContext : MachineContext) : SentryCrashStackCursor :=
  let cursor := cursor.resetCursor
  { cursor with
    machineContext := machineContext
    maxStackDepth := maxStackDepth
    instructionAddress := cursor.stackEntry.address }

theorem nextFrame_true {cursor cursor' : SentryCrashStackCursor}
    (h : cursor.nextFrame cpu copySafely = (true, cursor')) :
    cursor'.currentDepth = cursor.currentDepth + 1 ∧
      cursor'.maxStackDepth = cursor.maxStackDepth := by
  unfold nextFrame copyFrame at h
  dsimp only at h
  split at h
  · cases h
  · rename_i cursor₁ hcopy
    split at h
    · cases h
    · cases h
      have hframe : _ = cursor₁ := congrArg Prod.snd hcopy
      rw [← hframe]
      exact ⟨rfl, rfl⟩

theorem advanceFrame_true {cursor cursor' : SentryCrashStackCursor}
    (h : cursor.advanceFrame cpu copySafely = (true, cursor')) :
    cursor'.currentDepth = cursor.currentDepth + 1 ∧
      cursor'.maxStackDepth = cursor.maxStackDepth := by
  unfold advanceFrame at h
  split at h
  · split at h
    · cases h
    · exact (nextFrame_true cpu copySafely h :)
  · exact nextFrame_true cpu copySafely h

/-- Each address that is found takes one of the depth that is left. -/
theorem advanceCursor_true {cursor cursor' : SentryCrashStackCursor}
    (h : cursor.advanceCursor cpu copySafely = (true, cursor')) :
    cursor.currentDepth < cursor.maxStackDepth ∧
      cursor'.currentDepth = cursor.currentDepth + 1 ∧
      cursor'.maxStackDepth = cursor.maxStackDepth := by
  unfold advanceCursor at h
  split at h
  · cases h
  · rename_i hdepth
    refine ⟨not_le.1 hdepth, ?_⟩
    split at h
    · dsimp only at h
      split at h
      · cases h
      · cases h
        exact ⟨rfl, rfl⟩
    · split at h
      · dsimp only at h
        split at h
        · cases h
          exact ⟨rfl, rfl⟩
        · exact (advanceFrame_true cpu copySafely h :)
      · exact advanceFrame_true cpu copySafely h

/-- Advances until it is told that there is nothing more. -/
def advanceAll (cursor : SentryCrashStackCursor) : List Nat × SentryCrashStackCursor :=
  match _h : cursor.advanceCursor cpu copySafely with
  | (false, cursor) => ([], cursor)
  | (true, cursor') =>
    let rest := cursor'.advanceAll
    (cursor'.stackEntry.address :: rest.1, rest.2)
termination_by (cursor.maxStackDepth - cursor.currentDepth).toNat
decreasing_by
  obtain ⟨hdepth, hstep, hmax⟩ := advanceCursor_true cpu copySafely _h
  omega

def isStackOverflow (context : MachineContext) (stackCursor : SentryCrashStackCursor) : Bool :=
  ((stackCursor.initWithMachineContext 150 context).advanceAll cpu copySafely).2.hasGivenUp

end SentryCrashStackCursor

/-! The addresses on the stack. -/

section Stack

variable (cpu : CPU) (memory : Memory)

/-- A frame that can be read and is not the last one. -/
def frameAt (address : Nat) : Option FrameEntry :=
  let frame := FrameEntry.ofBytes cpu.pointerSize memory.byte address
  if memory.ReadableRange address (2 * cpu.pointerSize) ∧ frame.previous ≠ 0 ∧
      frame.return_address ≠ 0 then
    some frame
  else none

/-- The first return addresses of the frames from one on; the chain may be a cycle. -/
def returnAddresses : Nat → Nat → List Nat
  | 0, _ => []
  | count + 1, address =>
    match frameAt cpu memory address with
    | some frame => frame.return_address :: returnAddresses count frame.previous
    | none => []

def linkAddresses (context : MachineContext) : List Nat :=
  if cpu.linkRegister context = 0 then [] else [cpu.linkRegister context]

/-- The first addresses of the stack. -/
def stackAddresses (count : Nat) (context : MachineContext) : List Nat :=
  if cpu.instructionAddress context = 0 then []
  else
    (cpu.instructionAddress context :: (linkAddresses cpu context ++
      returnAddresses cpu memory count (cpu.framePointer context))).take count

theorem take_returnAddresses {count count' : Nat} (h : count ≤ count') (address : Nat) :
    (returnAddresses cpu memory count' address).take count =
      returnAddresses cpu memory count address := by
  induction count generalizing count' address with
  | zero => rfl
  | succ count ih =>
    cases count' with
    | zero => exact absurd h (Nat.not_succ_le_zero count)
    | succ count' =>
      unfold returnAddresses
      cases frameAt cpu memory address with
      | none => rfl
      | some frame =>
        dsimp only
        rw [List.take_succ_cons, ih (Nat.le_of_succ_le_succ h)]

/-- More of the chain makes no difference to the first addresses. -/
theorem take_append_returnAddresses (before : List Nat) {count count' : Nat} (h : count ≤ count')
    (address : Nat) :
    (before ++ returnAddresses cpu memory count' address).take count =
      (before ++ returnAddresses cpu memory count address).take count := by
  have hle : count - before.length ≤ count := Nat.sub_le _ _
  rw [List.take_append, List.take_append, take_returnAddresses cpu memory (hle.trans h),
    take_returnAddresses cpu memory hle]

end Stack

namespace SentryCrashStackCursor

variable (cpu : CPU) {memory : Memory} (copySafely : ReadOverwrite memory)

/-- What the cursor yields where it may yield so many addresses more. It gives up only when it is
asked for one too many. -/
structure Walk (cursor : SentryCrashStackCursor) (room : Nat) (addresses : List Nat) : Prop where
  yields : (cursor.advanceAll cpu copySafely).1 = addresses
  atMost : addresses.length ≤ room
  meanwhile : ∀ count ≤ addresses.length,
    ((fun c => (advanceCursor cpu copySafely c).2)^[count] cursor).hasGivenUp = false
  gaveUp : (cursor.advanceAll cpu copySafely).2.hasGivenUp = true ↔ addresses.length = room

theorem advanceAll_false {cursor cursor' : SentryCrashStackCursor}
    (h : cursor.advanceCursor cpu copySafely = (false, cursor')) :
    cursor.advanceAll cpu copySafely = ([], cursor') := by
  rw [advanceAll]
  split
  · rename_i heq
    cases h.symm.trans heq
    rfl
  · rename_i heq
    cases h.symm.trans heq

theorem advanceAll_true {cursor cursor' : SentryCrashStackCursor}
    (h : cursor.advanceCursor cpu copySafely = (true, cursor')) :
    cursor.advanceAll cpu copySafely =
      (cursor'.stackEntry.address :: (cursor'.advanceAll cpu copySafely).1,
        (cursor'.advanceAll cpu copySafely).2) := by
  rw [advanceAll]
  split
  · rename_i heq
    cases h.symm.trans heq
  · rename_i heq
    cases h.symm.trans heq
    rfl

theorem Walk.full {cursor : SentryCrashStackCursor} (h : cursor.hasGivenUp = false)
    (hroom : cursor.maxStackDepth ≤ cursor.currentDepth) : Walk cpu copySafely cursor 0 [] := by
  have hstep : cursor.advanceCursor cpu copySafely = (false, { cursor with hasGivenUp := true }) :=
    if_pos hroom
  have hall := advanceAll_false cpu copySafely hstep
  constructor
  · rw [hall]
  · rfl
  · intro count hcount
    rw [Nat.le_zero.1 hcount]
    exact h
  · rw [hall]
    exact iff_of_true rfl rfl

theorem Walk.stop {cursor cursor' : SentryCrashStackCursor} {room : Nat}
    (h : cursor.hasGivenUp = false) (h' : cursor'.hasGivenUp = false)
    (hstep : cursor.advanceCursor cpu copySafely = (false, cursor')) :
    Walk cpu copySafely cursor (room + 1) [] := by
  have hall := advanceAll_false cpu copySafely hstep
  constructor
  · rw [hall]
  · exact Nat.zero_le _
  · intro count hcount
    rw [Nat.le_zero.1 hcount]
    exact h
  · rw [hall]
    exact iff_of_false (by simp [h']) (Nat.succ_ne_zero room).symm

theorem Walk.step {cursor cursor' : SentryCrashStackCursor} {room : Nat} {addresses : List Nat}
    (h : cursor.hasGivenUp = false)
    (hstep : cursor.advanceCursor cpu copySafely = (true, cursor'))
    (hrest : Walk cpu copySafely cursor' room addresses) :
    Walk cpu copySafely cursor (room + 1) (cursor'.stackEntry.address :: addresses) := by
  have hall := advanceAll_true cpu copySafely hstep
  constructor
  · rw [hall, hrest.yields]
  · exact Nat.succ_le_succ hrest.atMost
  · intro count hcount
    cases count with
    | zero => exact h
    | succ count =>
      rw [Function.iterate_succ_apply, hstep]
      exact hrest.meanwhile count (Nat.le_of_succ_le_succ hcount)
  · rw [hall]
    exact hrest.gaveUp.trans Nat.succ_inj.symm

/-! The frames. -/

theorem word_congr {size : Nat} {bytes bytes' : Buffer} {address address' : Nat}
    (h : ∀ i < size, bytes (address + i) = bytes' (address' + i)) :
    word size bytes address = word size bytes' address' := by
  unfold word
  congr 1
  apply List.map_congr_left
  intro i hi
  rw [h i (List.mem_range.1 hi)]

theorem copyFrame_of_readable {cursor : SentryCrashStackCursor}
    (h : memory.ReadableRange cursor.currentFrame.previous (2 * cpu.pointerSize)) :
    cursor.copyFrame cpu copySafely =
      (true, { cursor with
        currentFrame := .ofBytes cpu.pointerSize memory.byte cursor.currentFrame.previous }) := by
  have hresult := (copySafely.result cursor.currentFrame.previous
    (cursor.currentFrame.bytes cpu.pointerSize) 0 (2 * cpu.pointerSize)).2 h
  have hcopied := copySafely.copied cursor.currentFrame.previous
    (cursor.currentFrame.bytes cpu.pointerSize) 0 (2 * cpu.pointerSize) h
  have hsize : 0 < cpu.pointerSize := by cases cpu <;> decide
  unfold copyFrame
  dsimp only
  congr 1
  · rw [hresult]
    simp only [ne_eq, Nat.cast_eq_zero, decide_not, Bool.not_eq_true', decide_eq_false_iff_not]
    omega
  · congr 1
    unfold FrameEntry.ofBytes
    congr 1
    · apply word_congr
      intro i hi
      exact hcopied i (by omega)
    · apply word_congr
      intro i hi
      rw [Nat.zero_add, Nat.add_assoc, ← hcopied _ (show cpu.pointerSize + i < _ by omega),
        Nat.zero_add]

theorem copyFrame_of_unreadable {cursor : SentryCrashStackCursor}
    (h : ¬ memory.ReadableRange cursor.currentFrame.previous (2 * cpu.pointerSize)) :
    (cursor.copyFrame cpu copySafely).1 = false := by
  have hresult := copySafely.unreadable cursor.currentFrame.previous
    (cursor.currentFrame.bytes cpu.pointerSize) 0 (2 * cpu.pointerSize) h
  unfold copyFrame
  dsimp only
  rw [hresult]
  rfl

theorem nextFrame_some {cursor : SentryCrashStackCursor} {frame : FrameEntry}
    (h : frameAt cpu memory cursor.currentFrame.previous = some frame) :
    cursor.nextFrame cpu copySafely =
      successfulExit cpu { cursor with currentFrame := frame } frame.return_address := by
  unfold frameAt at h
  dsimp only at h
  split at h
  · rename_i hframe
    obtain ⟨hread, hprevious, hreturn⟩ := hframe
    cases h
    unfold nextFrame
    rw [copyFrame_of_readable cpu copySafely hread]
    exact if_neg (not_or.2 ⟨hprevious, hreturn⟩)
  · cases h

theorem nextFrame_none {cursor : SentryCrashStackCursor}
    (h : frameAt cpu memory cursor.currentFrame.previous = none) :
    ∃ cursor', cursor.nextFrame cpu copySafely = (false, cursor') ∧
      cursor'.hasGivenUp = cursor.hasGivenUp := by
  unfold nextFrame
  by_cases hread : memory.ReadableRange cursor.currentFrame.previous (2 * cpu.pointerSize)
  · rw [copyFrame_of_readable cpu copySafely hread]
    unfold frameAt at h
    dsimp only at h ⊢
    split at h
    · cases h
    · rename_i hlast
      refine ⟨_, if_pos ?_, rfl⟩
      by_contra hor
      exact hlast ⟨hread, not_or.1 hor⟩
  · have hfalse := copyFrame_of_unreadable cpu copySafely hread
    split
    · rename_i cursor' hcopy
      refine ⟨cursor', rfl, ?_⟩
      have hframe : _ = cursor' := congrArg Prod.snd hcopy
      rw [← hframe]
      rfl
    · rename_i hcopy
      rw [hcopy] at hfalse
      cases hfalse

/-- The cursor is past the registers, and the frame at the address is the next one. -/
structure OnFrames (cursor : SentryCrashStackCursor) (address : Nat) : Prop where
  started : cursor.instructionAddress ≠ 0
  linked : cursor.linkRegister ≠ 0 ∨ cursor.isPastFramePointer = true ∨
    cpu.linkRegister cursor.machineContext = 0
  ahead : (cursor.isPastFramePointer = true ∧ cursor.currentFrame.previous = address ∧
      address ≠ 0) ∨
    (cursor.isPastFramePointer = false ∧ cursor.currentFrame.previous = 0 ∧
      address = cpu.framePointer cursor.machineContext)

/-- The cursor with the address in the frame that it reads next. -/
def toFrame (cursor : SentryCrashStackCursor) (address : Nat) : SentryCrashStackCursor :=
  { cursor with
    currentFrame := { cursor.currentFrame with previous := address }
    isPastFramePointer := true }

theorem OnFrames.advanceFrame {cursor : SentryCrashStackCursor} {address : Nat}
    (h : OnFrames cpu cursor address) :
    cursor.advanceFrame cpu copySafely = (cursor.toFrame address).nextFrame cpu copySafely := by
  unfold SentryCrashStackCursor.advanceFrame toFrame
  rcases h.ahead with ⟨hpast, hprevious, hne⟩ | ⟨hpast, hprevious, haddress⟩
  · rw [hprevious, if_neg hne, ← hpast, ← hprevious]
  · rw [if_pos hprevious, hpast, if_neg Bool.false_ne_true, haddress]

theorem OnFrames.advanceCursor {cursor : SentryCrashStackCursor} {address : Nat}
    (h : OnFrames cpu cursor address) (hdepth : cursor.currentDepth < cursor.maxStackDepth) :
    cursor.advanceCursor cpu copySafely = (cursor.toFrame address).nextFrame cpu copySafely := by
  rw [← h.advanceFrame]
  unfold SentryCrashStackCursor.advanceCursor
  rw [if_neg (not_le.2 hdepth), if_neg h.started]
  split
  · rename_i hlink
    have hzero : cpu.linkRegister cursor.machineContext = 0 := by
      rcases h.linked with hne | hpast | hzero
      · exact absurd hlink.1 hne
      · exact Bool.noConfusion (hpast.symm.trans hlink.2)
      · exact hzero
    dsimp only
    rw [hzero, if_neg (not_not.2 rfl), ← hlink.1]
  · rfl

theorem OnFrames.walk (room : Nat) {cursor : SentryCrashStackCursor} {address : Nat}
    (h : OnFrames cpu cursor address) (hgiven : cursor.hasGivenUp = false)
    (hroom : (cursor.maxStackDepth - cursor.currentDepth).toNat = room) :
    Walk cpu copySafely cursor room
      ((returnAddresses cpu memory room address).map cpu.normaliseInstructionPointer) := by
  induction room generalizing cursor address with
  | zero => exact Walk.full cpu copySafely hgiven (by omega)
  | succ room ih =>
    have hstep := h.advanceCursor cpu copySafely (by omega)
    unfold returnAddresses
    cases hframe : frameAt cpu memory address with
    | none =>
      obtain ⟨cursor', hnone, hgiven'⟩ := @nextFrame_none cpu memory copySafely
        (cursor.toFrame address) hframe
      exact Walk.stop cpu copySafely hgiven (hgiven'.trans hgiven) (hstep.trans hnone)
    | some frame =>
      have hsome := @nextFrame_some cpu memory copySafely (cursor.toFrame address) frame hframe
      refine Walk.step cpu copySafely hgiven (hstep.trans hsome) (ih ?_ hgiven ?_)
      · have hnext : frame.previous ≠ 0 := by
          unfold frameAt at hframe
          dsimp only at hframe
          split at hframe
          · rename_i hlink
            cases hframe
            exact hlink.2.1
          · cases hframe
        exact ⟨h.started, .inr (.inl rfl), .inl ⟨rfl, rfl, hnext⟩⟩
      · dsimp only [toFrame]
        omega

/-- Past the instruction pointer, with the link register not yet read. -/
theorem walk_link (room : Nat) {cursor : SentryCrashStackCursor}
    (hstarted : cursor.instructionAddress ≠ 0) (hlink : cursor.linkRegister = 0)
    (hpast : cursor.isPastFramePointer = false) (hprevious : cursor.currentFrame.previous = 0)
    (hgiven : cursor.hasGivenUp = false)
    (hroom : (cursor.maxStackDepth - cursor.currentDepth).toNat = room) :
    Walk cpu copySafely cursor room
      (((linkAddresses cpu cursor.machineContext ++ returnAddresses cpu memory room
        (cpu.framePointer cursor.machineContext)).take room).map
          cpu.normaliseInstructionPointer) := by
  by_cases hzero : cpu.linkRegister cursor.machineContext = 0
  · have hframes : OnFrames cpu cursor (cpu.framePointer cursor.machineContext) :=
      ⟨hstarted, .inr (.inr hzero), .inr ⟨hpast, hprevious, rfl⟩⟩
    rw [linkAddresses, if_pos hzero, List.nil_append, take_returnAddresses cpu memory le_rfl]
    exact hframes.walk cpu copySafely room hgiven hroom
  · rw [linkAddresses, if_neg hzero, List.singleton_append]
    cases room with
    | zero => exact Walk.full cpu copySafely hgiven (by omega)
    | succ room =>
      have hstep : cursor.advanceCursor cpu copySafely =
          successfulExit cpu
            { cursor with linkRegister := cpu.linkRegister cursor.machineContext }
            (cpu.linkRegister cursor.machineContext) := by
        unfold advanceCursor
        rw [if_neg (by omega), if_neg hstarted, if_pos ⟨hlink, hpast⟩]
        exact if_pos hzero
      rw [List.take_succ_cons, take_returnAddresses cpu memory (Nat.le_succ room)]
      refine Walk.step cpu copySafely hgiven hstep (OnFrames.walk cpu copySafely room ?_ hgiven ?_)
      · exact ⟨hstarted, .inl hzero, .inr ⟨hpast, hprevious, rfl⟩⟩
      · dsimp only
        omega

/-- The cursor before its first advance. -/
structure Fresh (cursor : SentryCrashStackCursor) : Prop where
  currentDepth : cursor.currentDepth = 0
  hasGivenUp : cursor.hasGivenUp = false
  instructionAddress : cursor.instructionAddress = 0
  linkRegister : cursor.linkRegister = 0
  previous : cursor.currentFrame.previous = 0
  isPastFramePointer : cursor.isPastFramePointer = false

theorem Fresh.walk {cursor : SentryCrashStackCursor} (h : Fresh cursor) :
    Walk cpu copySafely cursor cursor.maxStackDepth.toNat
      ((stackAddresses cpu memory cursor.maxStackDepth.toNat cursor.machineContext).map
        cpu.normaliseInstructionPointer) := by
  have hroom : (cursor.maxStackDepth - cursor.currentDepth).toNat =
      cursor.maxStackDepth.toNat := by
    rw [h.currentDepth, Int.sub_zero]
  unfold stackAddresses
  cases hmax : cursor.maxStackDepth.toNat with
  | zero =>
    rw [List.take_zero, ite_self]
    exact Walk.full cpu copySafely h.hasGivenUp (by omega)
  | succ room =>
    have hstep : cursor.advanceCursor cpu copySafely =
        if cpu.instructionAddress cursor.machineContext = 0 then
          (false, { cursor with
            instructionAddress := cpu.instructionAddress cursor.machineContext })
        else successfulExit cpu
          { cursor with instructionAddress := cpu.instructionAddress cursor.machineContext }
          (cpu.instructionAddress cursor.machineContext) := by
      unfold advanceCursor
      rw [if_neg (by omega), if_pos h.instructionAddress]
    by_cases hzero : cpu.instructionAddress cursor.machineContext = 0
    · rw [if_pos hzero] at hstep ⊢
      refine Walk.stop cpu copySafely h.hasGivenUp ?_ hstep
      exact h.hasGivenUp
    · rw [if_neg hzero] at hstep ⊢
      rw [List.take_succ_cons, take_append_returnAddresses cpu memory _ (Nat.le_succ room)]
      refine Walk.step cpu copySafely h.hasGivenUp hstep
        (walk_link cpu copySafely room ?_ ?_ ?_ ?_ ?_ ?_)
      · exact hzero
      · exact h.linkRegister
      · exact h.isPastFramePointer
      · exact h.previous
      · exact h.hasGivenUp
      · dsimp only
        omega

theorem resetCursor_advanceFrame (cursor : SentryCrashStackCursor) :
    (cursor.advanceFrame cpu copySafely).2.resetCursor = cursor.resetCursor := by
  have hnext : ∀ c : SentryCrashStackCursor,
      (c.nextFrame cpu copySafely).2.resetCursor = c.resetCursor := by
    intro c
    unfold nextFrame
    split
    · rename_i c' hcopy
      have hframe : _ = c' := congrArg Prod.snd hcopy
      rw [← hframe]
      rfl
    · rename_i c' hcopy
      have hframe : _ = c' := congrArg Prod.snd hcopy
      rw [← hframe]
      split <;> rfl
  unfold advanceFrame
  split
  · split
    · rfl
    · exact hnext _
  · exact hnext cursor

theorem resetCursor_advanceCursor (cursor : SentryCrashStackCursor) :
    (cursor.advanceCursor cpu copySafely).2.resetCursor = cursor.resetCursor := by
  unfold advanceCursor
  split
  · rfl
  · split
    · dsimp only
      split <;> rfl
    · split
      · dsimp only
        split
        · rfl
        · exact resetCursor_advanceFrame cpu copySafely _
      · exact resetCursor_advanceFrame cpu copySafely cursor

theorem resetCursor_iterate (cursor : SentryCrashStackCursor) (count : Nat) :
    ((fun c => (advanceCursor cpu copySafely c).2)^[count] cursor).resetCursor =
      cursor.resetCursor := by
  induction count generalizing cursor with
  | zero => rfl
  | succ count ih =>
    rw [Function.iterate_succ_apply, ih]
    exact resetCursor_advanceCursor cpu copySafely cursor

/-- A frame that is its own previous one. -/
example : stackAddresses .x86_64 ⟨fun i => 16 ≤ i ∧ i < 32, fun i =>
    if i = 16 then 16 else if i = 24 then 7 else 0⟩ 4 ⟨1, 0, 16⟩ = [1, 7, 7, 7] := by decide

/-- The cursor yields the stack, and once more after a reset at any time. -/
theorem walk_initWithMachineContext (cursor : SentryCrashStackCursor) (maxStackDepth : Int)
    (context : MachineContext) :
    let start := cursor.initWithMachineContext maxStackDepth context
    let addresses := (stackAddresses cpu memory maxStackDepth.toNat context).map
      cpu.normaliseInstructionPointer
    Walk cpu copySafely start maxStackDepth.toNat addresses ∧
      ∀ count, Walk cpu copySafely
        ((fun c => (advanceCursor cpu copySafely c).2)^[count] start).resetCursor
        maxStackDepth.toNat addresses := by
  intro start addresses
  have hfresh : Fresh start := ⟨rfl, rfl, rfl, rfl, rfl, rfl⟩
  have hwalk : Walk cpu copySafely start maxStackDepth.toNat addresses :=
    hfresh.walk cpu copySafely
  refine ⟨hwalk, fun count => ?_⟩
  rw [resetCursor_iterate]
  exact hwalk

theorem isStackOverflow_iff (context : MachineContext) (stackCursor : SentryCrashStackCursor) :
    isStackOverflow cpu copySafely context stackCursor = true ↔
      (stackAddresses cpu memory 150 context).length = 150 := by
  have hfresh : Fresh (stackCursor.initWithMachineContext 150 context) :=
    ⟨rfl, rfl, rfl, rfl, rfl, rfl⟩
  have hgave := (hfresh.walk cpu copySafely).gaveUp
  rw [List.length_map] at hgave
  exact hgave

end SentryCrashStackCursor

end SentryCocoa.StackCursor
