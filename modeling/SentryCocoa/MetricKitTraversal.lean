import SentryCocoa.ProfilerTables
import SentryCocoa.Scope
import Mathlib.Algebra.Order.BigOperators.Group.List
import Mathlib.Algebra.Order.Ring.Nat
import Mathlib.Data.Finset.Card
import Mathlib.Logic.Relation

/-! The call stacks of a MetricKit diagnostic that is not per thread. The frames of a call stack
are a tree, and a loop with a list of frames walks it and captures an event for each stack trace
that it finds. What was processed, and what the parent of a frame is, is looked up by address. -/
namespace SentryCocoa.MetricKit
open SentryCocoa.Foundation
open Scope (SentryLevel)
open Profiling (sentry_formatHexAddressUInt64)
open Relation (ReflTransGen)

/-- The binary that a frame is in. -/
structure MXBinary where
  binaryUUID : String
  offsetIntoBinaryTextSegment : Int64
  binaryName : Option String
  deriving DecidableEq

/-- Without sub frames the list is empty. -/
inductive SentryMXFrame where
  | mk (binary : MXBinary) (address : UInt64) (subFrames : List SentryMXFrame)

namespace SentryMXFrame

def binary : SentryMXFrame → MXBinary
  | mk binary _ _ => binary

def address : SentryMXFrame → UInt64
  | mk _ address _ => address

def subFrames : SentryMXFrame → List SentryMXFrame
  | mk _ _ subFrames => subFrames

mutual

def framesIncludingSelf : SentryMXFrame → List SentryMXFrame
  | mk binary address subFrames => mk binary address subFrames :: flattenedFrames subFrames

/-- The frames of a list and all those below them. -/
def flattenedFrames : List SentryMXFrame → List SentryMXFrame
  | [] => []
  | frame :: frames => frame.framesIncludingSelf ++ flattenedFrames frames

end

end SentryMXFrame

structure SentryMXCallStack where
  callStackRootFrames : List SentryMXFrame

structure SentryMXCallStackTree where
  callStacks : List SentryMXCallStack

def SentryMXCallStackTree.rootFrames (callStackTree : SentryMXCallStackTree) :
    List SentryMXFrame :=
  callStackTree.callStacks.flatMap SentryMXCallStack.callStackRootFrames

structure SentryMXExceptionParams where
  handled : Bool
  level : SentryLevel
  exceptionValue : String
  exceptionType : String
  exceptionMechanism : String
  timeStampBegin : NSDate

/-! Events. -/

structure SentryFrame where
  package : Option String
  inApp : Bool
  instructionAddress : String
  imageAddress : String
  deriving DecidableEq

structure SentryThread where
  threadId : Nat
  crashed : Bool
  stacktrace : List SentryFrame

structure SentryMechanism where
  type : String
  handled : Bool
  synthetic : Bool

structure SentryException where
  value : String
  type : String
  mechanism : SentryMechanism
  stacktrace : Option (List SentryFrame)
  threadId : Option Nat

structure SentryDebugMeta where
  type : String
  debugID : String
  codeFile : Option String
  imageAddress : String

structure SentryEvent where
  level : SentryLevel
  timestamp : NSDate
  exception : SentryException
  threads : List SentryThread
  debugMeta : List SentryDebugMeta

/-- The stack traces of the threads and of the exception. -/
def SentryEvent.stacktraces (event : SentryEvent) : List (List SentryFrame) :=
  event.threads.map SentryThread.stacktrace ++ event.exception.stacktrace.toList

def SentryMXFrame.imageAddress (frame : SentryMXFrame) : UInt64 :=
  frame.address - frame.binary.offsetIntoBinaryTextSegment.toUInt64

/-- One image for each binary, that of the first frame in it. -/
def extractDebugMetaFromMXFrames (mxFrames : List SentryMXFrame) : List SentryDebugMeta :=
  mxFrames.foldl (fun debugMetas mxFrame =>
    if debugMetas.any fun image => image.debugID = mxFrame.binary.binaryUUID then debugMetas
    else debugMetas ++ [{
      type := "macho"
      debugID := mxFrame.binary.binaryUUID
      codeFile := mxFrame.binary.binaryName
      imageAddress := sentry_formatHexAddressUInt64 mxFrame.imageAddress }]) []

section

variable (isInApp : Option String → Bool) (params : SentryMXExceptionParams)

def convertMXFrame (mxFrame : SentryMXFrame) : SentryFrame where
  package := mxFrame.binary.binaryName
  inApp := isInApp mxFrame.binary.binaryName
  instructionAddress := sentry_formatHexAddressUInt64 mxFrame.address
  imageAddress := sentry_formatHexAddressUInt64 mxFrame.imageAddress

def convertMXFramesToSentryStacktrace (mxFrames : List SentryMXFrame) : List SentryFrame :=
  mxFrames.map (convertMXFrame isInApp)

def createEvent : SentryEvent where
  level := params.level
  timestamp := params.timeStampBegin
  exception := {
    value := params.exceptionValue
    type := params.exceptionType
    mechanism := ⟨params.exceptionMechanism, params.handled, true⟩
    stacktrace := none
    threadId := none }
  threads := []
  debugMeta := []

def captureEventNotPerThread (frames : List SentryMXFrame) : SentryEvent :=
  let event := createEvent params
  let thread : SentryThread :=
    ⟨0, !params.handled, convertMXFramesToSentryStacktrace isInApp frames⟩
  { event with
    exception := { event.exception with
      stacktrace := some thread.stacktrace
      threadId := some thread.threadId }
    threads := [thread]
    debugMeta := extractDebugMetaFromMXFrames frames }

/-! The loop. -/

/-- The state of the loop; the last of the stack trace frames is the head of the list. -/
structure Traversal where
  stackTraceFrames : List SentryMXFrame
  processedFrameAddresses : List UInt64
  addressesToParentFrames : UInt64 → Option SentryMXFrame
  captured : List SentryEvent

/-- What removing the last object of an empty array raises. -/
inductive NSException where
  | range
  deriving DecidableEq

def removeLastObjects (count : Nat) (frames : List SentryMXFrame) :
    Except NSException (List SentryMXFrame) :=
  if count ≤ frames.length then .ok (frames.drop count) else .error .range

def getFirstUnprocessedSubFrames (subFrames : List SentryMXFrame)
    (processedFrameAddresses : List UInt64) : Option SentryMXFrame :=
  subFrames.find? fun frame => frame.address ∉ processedFrameAddresses

def setParentFrame (addressesToParentFrames : UInt64 → Option SentryMXFrame)
    (currentFrame : SentryMXFrame) : UInt64 → Option SentryMXFrame :=
  currentFrame.subFrames.foldl (fun parents subFrame =>
    Function.update parents subFrame.address (some currentFrame)) addressesToParentFrames

/-- One round of the loop with the last of the stack trace frames. -/
def Traversal.iterate (traversal : Traversal) (currentFrame : SentryMXFrame) :
    Except NSException Traversal :=
  let processedFrameAddresses := currentFrame.address :: traversal.processedFrameAddresses
  let addressesToParentFrames := setParentFrame traversal.addressesToParentFrames currentFrame
  let parentFrame := addressesToParentFrames currentFrame.address
  let siblings := (parentFrame.map SentryMXFrame.subFrames).getD []
  let firstUnprocessedSibling := getFirstUnprocessedSubFrames siblings processedFrameAddresses
  let lastUnprocessedSibling := firstUnprocessedSibling.isNone
  let noChildren := currentFrame.subFrames.isEmpty
  let traversal := { traversal with processedFrameAddresses, addressesToParentFrames }
  if noChildren && lastUnprocessedSibling then do
    let event := captureEventNotPerThread isInApp params traversal.stackTraceFrames.reverse
    let count := (parentFrame.map fun frame => frame.subFrames.length).getD 1
    let stackTraceFrames ← removeLastObjects count traversal.stackTraceFrames
    .ok { traversal with stackTraceFrames, captured := traversal.captured ++ [event] }
  else
    let nonProcessedSubFrame :=
      getFirstUnprocessedSubFrames currentFrame.subFrames processedFrameAddresses
    match nonProcessedSubFrame.or firstUnprocessedSibling with
    | some frame => .ok { traversal with
        stackTraceFrames := frame :: traversal.stackTraceFrames }
    | none => do
      let stackTraceFrames ← removeLastObjects 1 traversal.stackTraceFrames
      .ok { traversal with stackTraceFrames }

/-- There is no result before the loop has ended. -/
def Traversal.run : Nat → Traversal → Option (Except NSException (List SentryEvent))
  | 0, _ => none
  | fuel + 1, traversal =>
    match traversal.stackTraceFrames with
    | [] => some (.ok traversal.captured)
    | currentFrame :: _ =>
      match traversal.iterate isInApp params currentFrame with
      | .ok next => next.run fuel
      | .error exception => some (.error exception)

def Traversal.init (rootFrame : SentryMXFrame) : Traversal := ⟨[rootFrame], [], fun _ => none, []⟩

/-- The events of each of the root frames. -/
def buildAndCaptureMXEventFor (fuel : Nat) :
    List SentryMXFrame → Option (Except NSException (List (List SentryEvent)))
  | [] => some (.ok [])
  | rootFrame :: rootFrames =>
    match (Traversal.init rootFrame).run isInApp params fuel with
    | none => none
    | some (.error exception) => some (.error exception)
    | some (.ok events) =>
      (buildAndCaptureMXEventFor fuel rootFrames).map (Except.map (events :: ·))

/-- If the call stacks are not per thread. -/
def captureMXEvent (fuel : Nat) (callStackTree : SentryMXCallStackTree) :
    Option (Except NSException (List (List SentryEvent))) :=
  buildAndCaptureMXEventFor isInApp params fuel callStackTree.rootFrames

end

/-! ## Frames -/

namespace SentryMXFrame

theorem framesIncludingSelf_eq (frame : SentryMXFrame) :
    frame.framesIncludingSelf = frame :: flattenedFrames frame.subFrames := by
  cases frame with
  | mk binary address subFrames => rw [framesIncludingSelf, SentryMXFrame.subFrames]

theorem mem_flattenedFrames {frame : SentryMXFrame} {frames : List SentryMXFrame} :
    frame ∈ flattenedFrames frames ↔ ∃ top ∈ frames, frame ∈ top.framesIncludingSelf := by
  induction frames with
  | nil => simp [flattenedFrames]
  | cons first rest ih => simp [flattenedFrames, ih]

theorem mem_framesIncludingSelf (frame : SentryMXFrame) : frame ∈ frame.framesIncludingSelf := by
  rw [framesIncludingSelf_eq]
  exact List.mem_cons_self

/-- Induction over a tree. -/
theorem induction {motive : SentryMXFrame → Prop}
    (h : ∀ frame, (∀ subFrame ∈ frame.subFrames, motive subFrame) → motive frame)
    (frame : SentryMXFrame) : motive frame :=
  h frame fun subFrame _ => induction h subFrame
termination_by sizeOf frame
decreasing_by
  cases frame with
  | mk binary address subFrames =>
    have hless : sizeOf subFrame < sizeOf subFrames := List.sizeOf_lt_of_mem (by assumption)
    simp only [mk.sizeOf_spec]
    omega

mutual

theorem framesIncludingSelf_trans {frame subFrame : SentryMXFrame}
    (hsub : subFrame ∈ frame.subFrames) :
    (root : SentryMXFrame) → frame ∈ root.framesIncludingSelf → subFrame ∈ root.framesIncludingSelf
  | mk binary address subFrames, h => by
    rw [framesIncludingSelf] at h ⊢
    apply List.mem_cons_of_mem
    cases h with
    | head => exact mem_flattenedFrames.2 ⟨subFrame, hsub, mem_framesIncludingSelf subFrame⟩
    | tail _ hbelow => exact flattenedFrames_trans hsub subFrames hbelow

theorem flattenedFrames_trans {frame subFrame : SentryMXFrame}
    (hsub : subFrame ∈ frame.subFrames) :
    (frames : List SentryMXFrame) → frame ∈ flattenedFrames frames →
      subFrame ∈ flattenedFrames frames
  | [], h => absurd h List.not_mem_nil
  | first :: rest, h => by
    rw [flattenedFrames] at h ⊢
    rcases List.mem_append.1 h with hfirst | hrest
    · exact List.mem_append_left _ (framesIncludingSelf_trans hsub first hfirst)
    · exact List.mem_append_right _ (flattenedFrames_trans hsub rest hrest)

end

end SentryMXFrame

/-! ## Rounds -/

theorem setParentFrame_apply (addressesToParentFrames : UInt64 → Option SentryMXFrame)
    (currentFrame : SentryMXFrame) (address : UInt64) :
    setParentFrame addressesToParentFrames currentFrame address =
      if address ∈ currentFrame.subFrames.map SentryMXFrame.address then some currentFrame
      else addressesToParentFrames address := by
  have hfold : ∀ (frames : List SentryMXFrame) (parents : UInt64 → Option SentryMXFrame),
      frames.foldl (fun (parents : UInt64 → Option SentryMXFrame) subFrame =>
        Function.update parents subFrame.address (some currentFrame)) parents address =
      if address ∈ frames.map SentryMXFrame.address then some currentFrame
      else parents address := by
    intro frames
    induction frames with
    | nil => intro parents; simp
    | cons first rest ih =>
      intro parents
      rw [List.foldl_cons, ih]
      by_cases hrest : address ∈ rest.map SentryMXFrame.address
      · simp [hrest]
      · by_cases hfirst : address = first.address
        · simp [hfirst]
        · simp [hrest, hfirst]
  exact hfold currentFrame.subFrames addressesToParentFrames

theorem getFirstUnprocessedSubFrames_eq_none {subFrames : List SentryMXFrame}
    {processed : List UInt64} :
    getFirstUnprocessedSubFrames subFrames processed = none ↔
      ∀ frame ∈ subFrames, frame.address ∈ processed := by
  simp [getFirstUnprocessedSubFrames, List.find?_eq_none]

theorem getFirstUnprocessedSubFrames_append {before after : List SentryMXFrame}
    {frame : SentryMXFrame} {processed : List UInt64}
    (hbefore : ∀ other ∈ before, other.address ∈ processed) (hframe : frame.address ∉ processed) :
    getFirstUnprocessedSubFrames (before ++ frame :: after) processed = some frame := by
  unfold getFirstUnprocessedSubFrames
  rw [List.find?_append, List.find?_eq_none.2 (by simpa using hbefore), Option.none_or,
    List.find?_cons_of_pos (by simpa using hframe)]

theorem getFirstUnprocessedSubFrames_eq_some {subFrames : List SentryMXFrame}
    {frame : SentryMXFrame} {processed : List UInt64}
    (h : getFirstUnprocessedSubFrames subFrames processed = some frame) :
    frame ∈ subFrames ∧ frame.address ∉ processed :=
  ⟨List.mem_of_find?_eq_some h, by simpa using List.find?_some h⟩

namespace Traversal

/-- The current frame is processed and its sub frames know it. -/
def mark (traversal : Traversal) (currentFrame : SentryMXFrame) : Traversal :=
  { traversal with
    processedFrameAddresses := currentFrame.address :: traversal.processedFrameAddresses
    addressesToParentFrames := setParentFrame traversal.addressesToParentFrames currentFrame }

def parentFrame (traversal : Traversal) (currentFrame : SentryMXFrame) : Option SentryMXFrame :=
  setParentFrame traversal.addressesToParentFrames currentFrame currentFrame.address

def siblings (traversal : Traversal) (currentFrame : SentryMXFrame) : List SentryMXFrame :=
  ((traversal.parentFrame currentFrame).map SentryMXFrame.subFrames).getD []

/-- How many frames are popped after a capture. -/
def popCount (traversal : Traversal) (currentFrame : SentryMXFrame) : Nat :=
  ((traversal.parentFrame currentFrame).map fun frame => frame.subFrames.length).getD 1

/-- The frame that the round adds. -/
def next (traversal : Traversal) (currentFrame : SentryMXFrame) : Option SentryMXFrame :=
  (getFirstUnprocessedSubFrames currentFrame.subFrames
    (currentFrame.address :: traversal.processedFrameAddresses)).or
  (getFirstUnprocessedSubFrames (traversal.siblings currentFrame)
    (currentFrame.address :: traversal.processedFrameAddresses))

variable {isInApp : Option String → Bool} {params : SentryMXExceptionParams}
variable {traversal : Traversal} {currentFrame : SentryMXFrame}

theorem iterate_push {frame : SentryMXFrame} (h : traversal.next currentFrame = some frame) :
    traversal.iterate isInApp params currentFrame =
      .ok { traversal.mark currentFrame with
        stackTraceFrames := frame :: traversal.stackTraceFrames } := by
  have hround : ¬ (currentFrame.subFrames.isEmpty &&
      (getFirstUnprocessedSubFrames (traversal.siblings currentFrame)
        (currentFrame.address :: traversal.processedFrameAddresses)).isNone) := by
    intro hend
    rw [Bool.and_eq_true, List.isEmpty_iff, Option.isNone_iff_eq_none] at hend
    rw [next, hend.1, hend.2] at h
    cases h
  exact (if_neg hround).trans (by rw [next] at h; rw [siblings, parentFrame] at h; rw [h]; rfl)

theorem iterate_pop (hinner : currentFrame.subFrames ≠ [])
    (h : traversal.next currentFrame = none) {rest : List SentryMXFrame}
    (hframes : traversal.stackTraceFrames = currentFrame :: rest) :
    traversal.iterate isInApp params currentFrame =
      .ok { traversal.mark currentFrame with stackTraceFrames := rest } := by
  have hround : ¬ (currentFrame.subFrames.isEmpty &&
      (getFirstUnprocessedSubFrames (traversal.siblings currentFrame)
        (currentFrame.address :: traversal.processedFrameAddresses)).isNone) := by
    simp [hinner]
  refine (if_neg hround).trans ?_
  rw [next, siblings, parentFrame] at h
  rw [h, hframes]
  rfl

theorem iterate_capture (hleaf : currentFrame.subFrames = [])
    (h : traversal.next currentFrame = none) :
    traversal.iterate isInApp params currentFrame =
      (removeLastObjects (traversal.popCount currentFrame) traversal.stackTraceFrames).map
        fun stackTraceFrames => { traversal.mark currentFrame with
          stackTraceFrames
          captured := traversal.captured ++
            [captureEventNotPerThread isInApp params traversal.stackTraceFrames.reverse] } := by
  have hround : (currentFrame.subFrames.isEmpty &&
      (getFirstUnprocessedSubFrames (traversal.siblings currentFrame)
        (currentFrame.address :: traversal.processedFrameAddresses)).isNone) := by
    rw [next, hleaf] at h
    rw [Bool.and_eq_true, List.isEmpty_iff, Option.isNone_iff_eq_none]
    exact ⟨hleaf, by simpa [getFirstUnprocessedSubFrames] using h⟩
  refine (if_pos hround).trans ?_
  change (removeLastObjects (traversal.popCount currentFrame) traversal.stackTraceFrames).bind _ = _
  cases removeLastObjects (traversal.popCount currentFrame) traversal.stackTraceFrames with
  | ok stackTraceFrames => rfl
  | error exception => rfl

/-- What a round can do. -/
theorem iterate_cases {after : Traversal} {rest : List SentryMXFrame}
    (hframes : traversal.stackTraceFrames = currentFrame :: rest)
    (h : traversal.iterate isInApp params currentFrame = .ok after) :
    (∃ frame, traversal.next currentFrame = some frame ∧
      after = { traversal.mark currentFrame with
        stackTraceFrames := frame :: traversal.stackTraceFrames }) ∨
    (currentFrame.subFrames ≠ [] ∧ traversal.next currentFrame = none ∧
      after = { traversal.mark currentFrame with stackTraceFrames := rest }) ∨
    (currentFrame.subFrames = [] ∧ traversal.next currentFrame = none ∧
      traversal.popCount currentFrame ≤ traversal.stackTraceFrames.length ∧
      after = { traversal.mark currentFrame with
        stackTraceFrames := traversal.stackTraceFrames.drop (traversal.popCount currentFrame)
        captured := traversal.captured ++
          [captureEventNotPerThread isInApp params traversal.stackTraceFrames.reverse] }) := by
  cases hnext : traversal.next currentFrame with
  | some frame =>
    rw [iterate_push hnext] at h
    exact .inl ⟨frame, rfl, (Except.ok.inj h).symm⟩
  | none =>
    by_cases hleaf : currentFrame.subFrames = []
    · rw [iterate_capture hleaf hnext, removeLastObjects] at h
      split at h
      · next hcount => exact .inr (.inr ⟨hleaf, rfl, hcount, (Except.ok.inj h).symm⟩)
      · cases h
    · rw [iterate_pop hleaf hnext hframes] at h
      exact .inr (.inl ⟨hleaf, rfl, (Except.ok.inj h).symm⟩)

theorem next_eq_some {frame : SentryMXFrame} (h : traversal.next currentFrame = some frame) :
    frame.address ∉ currentFrame.address :: traversal.processedFrameAddresses ∧
      (frame ∈ currentFrame.subFrames ∨
        ∃ parent, traversal.parentFrame currentFrame = some parent ∧ frame ∈ parent.subFrames) := by
  rcases Option.or_eq_some_iff.1 h with hsub | ⟨-, hsibling⟩
  · have hfirst := getFirstUnprocessedSubFrames_eq_some hsub
    exact ⟨hfirst.2, .inl hfirst.1⟩
  · have hfirst := getFirstUnprocessedSubFrames_eq_some hsibling
    refine ⟨hfirst.2, .inr ?_⟩
    have hmem := hfirst.1
    rw [siblings] at hmem
    cases hparent : traversal.parentFrame currentFrame with
    | none =>
      rw [hparent] at hmem
      exact absurd hmem List.not_mem_nil
    | some parent =>
      rw [hparent] at hmem
      exact ⟨parent, rfl, hmem⟩

/-! ## Termination -/

/-- The loop stays within the frames of the tree, and a parent has a sub frame at the address. -/
structure Within (root : SentryMXFrame) (traversal : Traversal) : Prop where
  frames : ∀ frame ∈ traversal.stackTraceFrames, frame ∈ root.framesIncludingSelf
  parents : ∀ address parent, traversal.addressesToParentFrames address = some parent →
    address ∈ parent.subFrames.map SentryMXFrame.address ∧ parent ∈ root.framesIncludingSelf

theorem within_init (root : SentryMXFrame) : Within root (init root) where
  frames frame hframe := by
    rw [List.mem_singleton.1 hframe]
    exact root.mem_framesIncludingSelf
  parents _ _ h := nomatch h

section

variable {root : SentryMXFrame}

theorem Within.setParentFrame (h : Within root traversal)
    (hcurrent : currentFrame ∈ root.framesIncludingSelf) (address : UInt64)
    (parent : SentryMXFrame)
    (hparent : setParentFrame traversal.addressesToParentFrames currentFrame address =
      some parent) :
    address ∈ parent.subFrames.map SentryMXFrame.address ∧ parent ∈ root.framesIncludingSelf := by
  rw [setParentFrame_apply] at hparent
  split at hparent
  · next haddress =>
    cases hparent
    exact ⟨haddress, hcurrent⟩
  · exact h.parents address parent hparent

theorem Within.popCount_pos (h : Within root traversal)
    (hcurrent : currentFrame ∈ root.framesIncludingSelf) : 0 < traversal.popCount currentFrame := by
  unfold popCount
  cases hparent : traversal.parentFrame currentFrame with
  | none => decide
  | some parent =>
    have haddress := (h.setParentFrame hcurrent _ parent hparent).1
    simpa using List.length_pos_of_mem haddress

theorem Within.next (h : Within root traversal)
    (hcurrent : currentFrame ∈ root.framesIncludingSelf) {frame : SentryMXFrame}
    (hnext : traversal.next currentFrame = some frame) : frame ∈ root.framesIncludingSelf := by
  rcases (next_eq_some hnext).2 with hsub | ⟨parent, hparent, hsub⟩
  · exact SentryMXFrame.framesIncludingSelf_trans hsub root hcurrent
  · exact SentryMXFrame.framesIncludingSelf_trans hsub root
      (h.setParentFrame hcurrent _ parent hparent).2

theorem Within.iterate (h : Within root traversal) {after : Traversal} {rest : List SentryMXFrame}
    (hframes : traversal.stackTraceFrames = currentFrame :: rest)
    (hround : traversal.iterate isInApp params currentFrame = .ok after) : Within root after := by
  have hcurrent : currentFrame ∈ root.framesIncludingSelf :=
    h.frames currentFrame (by rw [hframes]; exact List.mem_cons_self)
  rcases iterate_cases hframes hround with
    ⟨frame, hnext, rfl⟩ | ⟨-, -, rfl⟩ | ⟨-, -, -, rfl⟩
  · refine ⟨fun other hother => ?_, h.setParentFrame hcurrent⟩
    rcases List.mem_cons.1 hother with rfl | hother
    · exact h.next hcurrent hnext
    · exact h.frames other hother
  · exact ⟨fun other hother => h.frames other (by rw [hframes]; exact List.mem_cons_of_mem _ hother),
      h.setParentFrame hcurrent⟩
  · exact ⟨fun other hother => h.frames other (List.mem_of_mem_drop hother),
      h.setParentFrame hcurrent⟩

/-- The addresses of the frames that were on the list; the last one is processed next. -/
def seen (traversal : Traversal) : List UInt64 :=
  (traversal.stackTraceFrames.head?.map SentryMXFrame.address).toList ++
    traversal.processedFrameAddresses

theorem seen_eq {rest : List SentryMXFrame}
    (h : traversal.stackTraceFrames = currentFrame :: rest) :
    traversal.seen = currentFrame.address :: traversal.processedFrameAddresses := by
  rw [seen, h]
  rfl

def unprocessed (root : SentryMXFrame) (traversal : Traversal) : Finset UInt64 :=
  (root.framesIncludingSelf.map SentryMXFrame.address).toFinset \ traversal.seen.toFinset

/-- A round either takes an address from the unprocessed ones or frames from the list. -/
def remaining (root : SentryMXFrame) (traversal : Traversal) : Nat :=
  2 * (unprocessed root traversal).card + traversal.stackTraceFrames.length

theorem remaining_iterate (h : Within root traversal) {after : Traversal}
    {rest : List SentryMXFrame} (hframes : traversal.stackTraceFrames = currentFrame :: rest)
    (hround : traversal.iterate isInApp params currentFrame = .ok after) :
    remaining root after < remaining root traversal := by
  have hcurrent : currentFrame ∈ root.framesIncludingSelf :=
    h.frames currentFrame (by rw [hframes]; exact List.mem_cons_self)
  have hsubset : ∀ frames captured, unprocessed root
      { traversal.mark currentFrame with stackTraceFrames := frames, captured } ⊆
        unprocessed root traversal := by
    intro frames captured address haddress
    rw [unprocessed, Finset.mem_sdiff, List.mem_toFinset] at haddress ⊢
    refine ⟨haddress.1, fun h => haddress.2 (List.mem_toFinset.2 (List.mem_append_right _ ?_))⟩
    rw [List.mem_toFinset, seen_eq hframes] at h
    exact h
  rcases iterate_cases hframes hround with
    ⟨frame, hnext, rfl⟩ | ⟨-, -, rfl⟩ | ⟨-, -, -, rfl⟩
  · have hmem : frame.address ∈ unprocessed root traversal := by
      have hnew := (next_eq_some hnext).1
      rw [unprocessed, Finset.mem_sdiff, List.mem_toFinset, List.mem_toFinset, seen_eq hframes]
      exact ⟨List.mem_map_of_mem (h.next hcurrent hnext), hnew⟩
    have hcard := Finset.card_lt_card (Finset.ssubset_iff_subset_ne.2
      ⟨hsubset (frame :: traversal.stackTraceFrames) traversal.captured, fun heq => by
        rw [← heq] at hmem
        simp [unprocessed, seen] at hmem⟩)
    simp only [remaining, mark, List.length_cons] at hcard ⊢
    omega
  · have hcard := Finset.card_le_card (hsubset rest traversal.captured)
    simp only [remaining, mark, hframes, List.length_cons] at hcard ⊢
    omega
  · have hpos := h.popCount_pos hcurrent
    have hcard := Finset.card_le_card (hsubset
      (traversal.stackTraceFrames.drop (traversal.popCount currentFrame))
      (traversal.captured ++
        [captureEventNotPerThread isInApp params traversal.stackTraceFrames.reverse]))
    have hlength : 0 < traversal.stackTraceFrames.length := by simp [hframes]
    simp only [remaining, mark, List.length_drop] at hcard ⊢
    omega

theorem run_terminates (h : Within root traversal) :
    ∀ fuel, remaining root traversal < fuel → traversal.run isInApp params fuel ≠ none := by
  intro fuel
  induction fuel generalizing traversal with
  | zero => omega
  | succ fuel ih =>
    intro hfuel
    rw [run]
    split
    · simp
    · next currentFrame rest hframes =>
      split
      · next after hround =>
        exact ih (h.iterate hframes hround) (by
          have hless := remaining_iterate h hframes hround
          omega)
      · simp

end

theorem run_mono {fuel fuel' : Nat} (hfuel : fuel ≤ fuel')
    {result : Except NSException (List SentryEvent)}
    (h : traversal.run isInApp params fuel = some result) :
    traversal.run isInApp params fuel' = some result := by
  induction fuel generalizing traversal fuel' with
  | zero => cases h
  | succ fuel ih =>
    obtain ⟨more, rfl⟩ := Nat.exists_eq_add_of_le' (Nat.lt_of_lt_of_le fuel.succ_pos hfuel)
    rw [run] at h ⊢
    split
    · next hframes => simpa only [hframes] using h
    · next currentFrame rest hframes =>
      simp only [hframes] at h
      cases hround : traversal.iterate isInApp params currentFrame with
      | ok after =>
        simp only [hround] at h
        exact ih (by omega) h
      | error exception => simpa only [hround] using h

end Traversal

theorem buildAndCaptureMXEventFor_terminates (isInApp : Option String → Bool)
    (params : SentryMXExceptionParams) {fuel : Nat} {rootFrames : List SentryMXFrame}
    (hfuel : ∀ root ∈ rootFrames, Traversal.remaining root (.init root) < fuel) :
    buildAndCaptureMXEventFor isInApp params fuel rootFrames ≠ none := by
  induction rootFrames with
  | nil => simp [buildAndCaptureMXEventFor]
  | cons root rest ih =>
    have hroot : (Traversal.init root).run isInApp params fuel ≠ none :=
      Traversal.run_terminates (Traversal.within_init root) fuel (hfuel root List.mem_cons_self)
    have hrest := ih fun other hother => hfuel other (List.mem_cons_of_mem _ hother)
    rw [buildAndCaptureMXEventFor]
    split
    · next hnone => exact absurd hnone hroot
    · simp
    · simpa using hrest

/-- The loop comes to an end for every tree, whatever the addresses are. -/
theorem captureMXEvent_terminates (isInApp : Option String → Bool)
    (params : SentryMXExceptionParams) (callStackTree : SentryMXCallStackTree) :
    ∃ fuel, captureMXEvent isInApp params fuel callStackTree ≠ none := by
  refine ⟨(callStackTree.rootFrames.map fun root => Traversal.remaining root (.init root)).sum + 1,
    buildAndCaptureMXEventFor_terminates isInApp params fun root hroot => ?_⟩
  exact Nat.lt_succ_of_le (List.le_sum_of_mem (List.mem_map_of_mem hroot))

end SentryCocoa.MetricKit
