import SentryCocoa.ProfilerChunks

/-! The tables of a profile. What a sample refers to is the backtrace that it was made from, at
every moment of a run and in every copy. -/
namespace SentryCocoa.Profiling
open SentryCocoa.Library.Interning

/-! ## Addresses -/

def hexDigitValue (c : Char) : Nat := if c.isDigit then c.toNat - 0x30 else c.toNat - 0x57

def hexDigitsValue (digits : List Char) : Nat :=
  digits.foldl (fun value c => value * 16 + hexDigitValue c) 0

/-- The address that a frame has in its text. -/
def Frame.address (frame : Frame) : UInt64 :=
  UInt64.ofNat (hexDigitsValue (frame.instruction_addr.toList.drop 2))

theorem hexDigitsValue_append (digits : List Char) (c : Char) :
    hexDigitsValue (digits ++ [c]) = hexDigitsValue digits * 16 + hexDigitValue c := by
  unfold hexDigitsValue
  rw [List.foldl_append, List.foldl_cons, List.foldl_nil]

theorem hexDigitsValue_toDigits (n : Nat) : hexDigitsValue (Nat.toDigits 16 n) = n := by
  have hdigit : ∀ d < 16, hexDigitValue d.digitChar = d := by decide
  induction n using Nat.strongRecOn with
  | ind n ih =>
    rcases Nat.lt_or_ge n 16 with hlt | hge
    · rw [Nat.toDigits_of_lt_base hlt]
      exact (Nat.zero_add _).trans (hdigit n hlt)
    · rw [Nat.toDigits_of_base_le (by decide) hge, hexDigitsValue_append, ih _ (by omega),
        hdigit _ (Nat.mod_lt _ (by decide))]
      omega

theorem hexDigitsValue_leftpad (n : Nat) (digits : List Char) :
    hexDigitsValue (digits.leftpad n '0') = hexDigitsValue digits := by
  have hzeros (k : Nat) :
      (List.replicate k '0').foldl (fun value c => value * 16 + hexDigitValue c) 0 = 0 := by
    induction k with
    | zero => rfl
    | succ k ih => exact ih
  unfold hexDigitsValue List.leftpad
  rw [List.foldl_append, hzeros]

theorem address_format (address : UInt64) :
    Frame.address ⟨sentry_formatHexAddressUInt64 address⟩ = address := by
  unfold Frame.address sentry_formatHexAddressUInt64
  rw [String.toList_append, List.drop_left' (by rfl), String.toList_ofList,
    hexDigitsValue_leftpad, hexDigitsValue_toDigits, UInt64.ofNat_toNat]

/-! ## Samples and backtraces -/

/-- The tables are closed and have nothing twice, and the samples are those of the backtraces. -/
structure Interned (samples : List SentrySample) («stacks» : List (List Nat))
    (frames : List Frame) (backtraces : List Backtrace) : Prop where
  samples : List.Forall₂ (fun sample backtrace =>
    sample.absoluteTimestamp = backtrace.absoluteTimestamp ∧
      sample.threadID = backtrace.threadMetadata.threadID ∧
      ∃ stack found, «stacks»[sample.stackIndex]? = some stack ∧
        resolve frames stack = some found ∧ found.map Frame.address = backtrace.addresses)
    samples backtraces
  indices : ∀ stack ∈ «stacks», ∀ frame ∈ stack, frame < frames.length
  nodup_frames : frames.Nodup
  nodup_stacks : «stacks».Nodup

namespace SentryProfilerState

/-- A call of the state; a copy leaves it as it is. -/
def call (state : SentryProfilerState) : Sampling.Call → SentryProfilerState
  | .cacheMainThreadID currentThread => state.cacheMainThreadID currentThread
  | .appendBacktrace backtrace date => state.appendBacktrace backtrace date
  | .copyProfilingData => state
  | .clear => state.clear

/-- The backtraces since the last clear. -/
def recorded (backtraces : List Backtrace) : Sampling.Call → List Backtrace
  | .appendBacktrace backtrace _ => backtraces ++ [backtrace]
  | .clear => []
  | _ => backtraces

/-- The state after calls of a new one. -/
def after (calls : List Sampling.Call) : SentryProfilerState := calls.foldl call .init

def recordedAfter (calls : List Sampling.Call) : List Backtrace := calls.foldl recorded []

structure Tables (state : SentryProfilerState) (backtraces : List Backtrace) : Prop where
  interned : Interned state.mutableState.samples state.mutableState.stacks.values
    state.mutableState.frames.values backtraces
  frames : state.mutableState.frames.Complete
  «stacks» : state.mutableState.stacks.Complete

theorem Tables.init (mainThreadID : UInt64) : Tables ⟨.init, mainThreadID⟩ [] where
  interned := ⟨.nil, List.forall_mem_nil _, List.nodup_nil, List.nodup_nil⟩
  frames := Table.complete_empty
  «stacks» := Table.complete_empty

variable {state : SentryProfilerState} {backtraces : List Backtrace}

theorem Tables.appendBacktrace (tables : state.Tables backtraces) (backtrace : Backtrace)
    (date : ℚ) : (state.appendBacktrace backtrace date).Tables (backtraces ++ [backtrace]) := by
  obtain ⟨⟨hsamples, hindices, -, -⟩, hframes, hstacks⟩ := tables
  have hresolved := state.mutableState.frames.resolve_internAll instruction_addr_injective
    (backtrace.addresses.map fun address => ⟨sentry_formatHexAddressUInt64 address⟩)
  have hmoreFrames := state.mutableState.frames.prefix_internAll
    (backtrace.addresses.map fun address => ⟨sentry_formatHexAddressUInt64 address⟩)
  have hframes' := hframes.internAll
    (backtrace.addresses.map fun address => ⟨sentry_formatHexAddressUInt64 address⟩)
  unfold SentryProfilerState.appendBacktrace
  dsimp only
  generalize state.mutableState.frames.internAll
    (backtrace.addresses.map fun address => ⟨sentry_formatHexAddressUInt64 address⟩) = stack
    at hresolved hmoreFrames hframes' ⊢
  have hstack := state.mutableState.stacks.getElem?_intern stackKey_injective stack.2
  have hmoreStacks := state.mutableState.stacks.prefix_intern stack.2
  refine ⟨⟨?_, ?_, hframes'.nodup, (hstacks.intern stack.2).nodup⟩, hframes',
    hstacks.intern stack.2⟩
  · apply List.rel_append
    · refine hsamples.imp ?_
      rintro sample backtrace' ⟨htime, hthread, old, found, hold, hfound, haddresses⟩
      exact ⟨htime, hthread, old, found, getElem?_of_prefix hmoreStacks hold,
        resolve_of_prefix hmoreFrames hfound, haddresses⟩
    · refine .cons ⟨rfl, rfl, stack.2, _, hstack, hresolved, ?_⟩ .nil
      rw [List.map_map]
      exact (List.map_congr_left fun address _ => address_format address).trans (List.map_id _)
  · intro old hold
    rcases Table.mem_intern hold with hold | rfl
    · intro frame hframe
      exact (hindices old hold frame hframe).trans_le hmoreFrames.length_le
    · exact lt_length_of_resolve hresolved

theorem Tables.call (tables : state.Tables backtraces) (call : Sampling.Call) :
    (state.call call).Tables (recorded backtraces call) := by
  cases call with
  | cacheMainThreadID currentThread => exact ⟨tables.interned, tables.frames, tables.stacks⟩
  | appendBacktrace backtrace date => exact tables.appendBacktrace backtrace date
  | copyProfilingData => exact tables
  | clear => exact .init state.mainThreadID

theorem Tables.calls (tables : state.Tables backtraces) (calls : List Sampling.Call) :
    (calls.foldl SentryProfilerState.call state).Tables (calls.foldl recorded backtraces) := by
  induction calls generalizing state backtraces with
  | nil => exact tables
  | cons call rest ih => exact ih (tables.call call)

/-- After any calls the samples, and those of a copy, refer to the backtraces that were appended
since the last clear. -/
theorem interned_after (calls : List Sampling.Call) :
    Interned (after calls).mutableState.samples (after calls).mutableState.stacks.values
        (after calls).mutableState.frames.values (recordedAfter calls) ∧
      Interned (after calls).copyProfilingData.samples (after calls).copyProfilingData.stacks
        (after calls).copyProfilingData.frames (recordedAfter calls) := by
  have tables : (after calls).Tables (recordedAfter calls) := (Tables.init 0).calls calls
  exact ⟨tables.interned, tables.interned⟩

end SentryProfilerState

end SentryCocoa.Profiling
