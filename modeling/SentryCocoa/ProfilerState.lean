import SentryCocoa.Foundation
import SentryCocoa.Library.Interning
import Mathlib.Algebra.Order.Ring.Rat

/-! The samples of a profiler. Frames and stacks are stored once; a sample refers to its stack and
a stack to its frames by index. Function names are there in debug builds only. -/
namespace SentryCocoa.Profiling
open SentryCocoa.Foundation SentryCocoa.Library.Interning

def sentry_stringForUInt64 (value : UInt64) : String := toString value.toNat

def sentry_formatHexAddressUInt64 (value : UInt64) : String :=
  "0x" ++ String.ofList ((Nat.toDigits 16 value.toNat).leftpad 16 '0')

structure ThreadMetadata where
  threadID : UInt64
  name : String
  priority : Int
  deriving DecidableEq

structure Backtrace where
  threadMetadata : ThreadMetadata
  absoluteTimestamp : UInt64
  addresses : List UInt64
  deriving DecidableEq

structure SentrySample where
  absoluteTimestamp : UInt64
  absoluteNSDateInterval : ℚ
  stackIndex : Nat
  threadID : UInt64
  deriving DecidableEq

structure Frame where
  instruction_addr : String
  deriving DecidableEq

/-- An entry of the thread metadata. -/
structure Metadata where
  name : Option String
  priority : Option Int
  deriving DecidableEq

/-- The indices joined by bars. -/
def stackKey (stack : List Nat) : String := "|".intercalate (stack.map toString)

/-- The tables hold the frames with `frameIndexLookup` and the stacks with `stackIndexLookup`. -/
structure SentryProfilerMutableState where
  samples : List SentrySample
  «stacks» : Table stackKey
  frames : Table Frame.instruction_addr
  threadMetadata : NSDictionary Metadata

def SentryProfilerMutableState.init : SentryProfilerMutableState := ⟨[], .empty, .empty, ∅⟩

structure SentryProfilerState where
  mutableState : SentryProfilerMutableState
  mainThreadID : UInt64

/-- What a chunk is made of. -/
structure ProfilingData where
  samples : List SentrySample
  «stacks» : List (List Nat)
  frames : List Frame
  threadMetadata : NSDictionary Metadata

namespace SentryProfilerState

def init : SentryProfilerState := ⟨.init, 0⟩

variable (state : SentryProfilerState)

def clear : SentryProfilerState := { state with mutableState := .init }

def cacheMainThreadID (currentThread : UInt64) : SentryProfilerState :=
  { state with mainThreadID := currentThread }

/-- The metadata of the thread of a backtrace; what is known already stays. -/
def metadataFor (thread : ThreadMetadata) : Metadata :=
  let metadata := (state.mutableState.threadMetadata.objectForKey
    (sentry_stringForUInt64 thread.threadID)).getD ⟨none, none⟩
  { name := metadata.name.or
      (if thread.name ≠ "" then some thread.name
      else if state.mainThreadID ≠ 0 ∧ thread.threadID = state.mainThreadID then some "main"
      else none)
    priority := metadata.priority.or (if thread.priority ≠ -1 then some thread.priority else none) }

def appendBacktrace (backtrace : Backtrace) (date : ℚ) : SentryProfilerState :=
  let threadID := sentry_stringForUInt64 backtrace.threadMetadata.threadID
  let metadata := state.metadataFor backtrace.threadMetadata
  let stack := state.mutableState.frames.internAll
    (backtrace.addresses.map fun address => ⟨sentry_formatHexAddressUInt64 address⟩)
  let stackIndex := state.mutableState.stacks.intern stack.2
  { state with mutableState :=
    { samples := state.mutableState.samples ++
        [⟨backtrace.absoluteTimestamp, date, stackIndex.2, backtrace.threadMetadata.threadID⟩]
      «stacks» := stackIndex.1
      frames := stack.1
      threadMetadata := state.mutableState.threadMetadata.insert threadID metadata } }

def copyProfilingData : ProfilingData where
  samples := state.mutableState.samples
  «stacks» := state.mutableState.stacks.values
  frames := state.mutableState.frames.values
  threadMetadata := state.mutableState.threadMetadata

end SentryProfilerState

/-! Keys. -/

theorem toString_inj {n m : Nat} (h : toString n = toString m) : n = m := by
  have hchars : Nat.toDigits 10 n = Nat.toDigits 10 m := by
    have hlists := congrArg String.toList h
    simpa using hlists
  calc
    n = Nat.ofDigitChars 10 (Nat.toDigits 10 n) 0 := Nat.ofDigitChars_ten_toDigits.symm
    _ = Nat.ofDigitChars 10 (Nat.toDigits 10 m) 0 := by rw [hchars]
    _ = m := Nat.ofDigitChars_ten_toDigits

theorem bar_notMem_toString (n : Nat) : '|' ∉ (toString n).toList := by
  intro hmem
  have hdigit : ('|' : Char).isDigit = true :=
    Nat.isDigit_of_mem_toDigits (by decide : 0 < 10) (Nat.le_refl 10) (by simpa using hmem)
  exact absurd hdigit (by decide)

theorem splitOn_stackKey {stack : List Nat} (hne : stack ≠ []) :
    (stackKey stack).toList.splitOn '|' = stack.map fun n => (toString n).toList := by
  have hkey : (stackKey stack).toList =
      ['|'].intercalate (stack.map fun n => (toString n).toList) := by
    unfold stackKey
    rw [String.toList_intercalate, List.map_map]
    rfl
  rw [hkey]
  apply List.splitOn_intercalate
  · intro digits hdigits
    obtain ⟨n, -, rfl⟩ := List.mem_map.mp hdigits
    exact bar_notMem_toString n
  · simpa using hne

theorem stackKey_cons_ne (n : Nat) (rest : List Nat) : stackKey (n :: rest) ≠ stackKey [] := by
  intro h
  have hsplit := splitOn_stackKey (List.cons_ne_nil n rest)
  have hnil : (stackKey []).toList.splitOn '|' = [[]] := rfl
  rw [h, hnil, List.map_cons, List.cons.injEq] at hsplit
  have hdigits : Nat.toDigits 10 n = [] := by simpa using hsplit.1.symm
  exact Nat.toDigits_ne_nil hdigits

/-- Different stacks have different keys. -/
theorem stackKey_injective : Function.Injective stackKey := by
  intro stack stack' h
  cases stack with
  | nil =>
    cases stack' with
    | nil => rfl
    | cons n rest => exact absurd h.symm (stackKey_cons_ne n rest)
  | cons n rest =>
    cases stack' with
    | nil => exact absurd h (stackKey_cons_ne n rest)
    | cons n' rest' =>
      have hlists := splitOn_stackKey (List.cons_ne_nil n rest)
      rw [h, splitOn_stackKey (List.cons_ne_nil n' rest')] at hlists
      refine List.map_injective_iff.mpr (fun n m hnm => ?_) hlists.symm
      exact toString_inj (String.toList_inj.mp hnm)

theorem instruction_addr_injective : Function.Injective Frame.instruction_addr := by
  rintro ⟨first⟩ ⟨second⟩ h
  cases h
  rfl

end SentryCocoa.Profiling
