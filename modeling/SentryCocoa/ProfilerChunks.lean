import SentryCocoa.ProfilerState
import SentryCocoa.Library.Machine

/-! The chunks of a continuous profile. The sampling thread appends backtraces while the chunk
timer copies the samples and clears them, each in a critical section of its own. -/
namespace SentryCocoa.Profiling
open SentryCocoa.Library.Interning SentryCocoa.Library.Machine

/-- A sample with the frames of its stack. -/
structure RecordedSample where
  absoluteTimestamp : UInt64
  absoluteNSDateInterval : ℚ
  threadID : UInt64
  frames : List Frame
  deriving DecidableEq

def Backtrace.sample (backtrace : Backtrace) (date : ℚ) : RecordedSample where
  absoluteTimestamp := backtrace.absoluteTimestamp
  absoluteNSDateInterval := date
  threadID := backtrace.threadMetadata.threadID
  frames := backtrace.addresses.map fun address => ⟨sentry_formatHexAddressUInt64 address⟩

namespace ProfilingData

/-- What a sample says with the tables of the data. -/
def read (data : ProfilingData) (sample : SentrySample) : Option RecordedSample :=
  (data.stacks[sample.stackIndex]?).bind fun stack =>
    (resolve data.frames stack).map fun frames =>
      ⟨sample.absoluteTimestamp, sample.absoluteNSDateInterval, sample.threadID, frames⟩

def readings (data : ProfilingData) : List (Option RecordedSample) := data.samples.map data.read

/-- No sample refers to anything outside of the tables. -/
def Closed (data : ProfilingData) : Prop :=
  ∀ sample ∈ data.samples, ∃ stack, data.stacks[sample.stackIndex]? = some stack ∧
    ∀ frame ∈ stack, frame < data.frames.length

def Readable (data : ProfilingData) : Prop := ∀ sample ∈ data.samples, (data.read sample).isSome

theorem read_eq_some {data : ProfilingData} {sample : SentrySample} {recorded : RecordedSample} :
    data.read sample = some recorded ↔ ∃ stack frames,
      data.stacks[sample.stackIndex]? = some stack ∧ resolve data.frames stack = some frames ∧
      recorded = ⟨sample.absoluteTimestamp, sample.absoluteNSDateInterval, sample.threadID,
        frames⟩ := by
  unfold read
  simp only [Option.bind_eq_some_iff, Option.map_eq_some_iff]
  constructor
  · rintro ⟨stack, hstack, frames, hframes, rfl⟩
    exact ⟨stack, frames, hstack, hframes, rfl⟩
  · rintro ⟨stack, frames, hstack, hframes, rfl⟩
    exact ⟨stack, hstack, frames, hframes, rfl⟩

theorem Readable.closed {data : ProfilingData} (readable : data.Readable) : data.Closed := by
  intro sample hsample
  obtain ⟨recorded, hread⟩ := Option.isSome_iff_exists.mp (readable sample hsample)
  obtain ⟨stack, frames, hstack, hframes, -⟩ := read_eq_some.mp hread
  exact ⟨stack, hstack, lt_length_of_resolve hframes⟩

theorem readable_iff (data : ProfilingData) :
    data.Readable ↔ ∀ reading ∈ data.readings, reading.isSome := by
  unfold Readable readings
  simp only [List.forall_mem_map]

@[simp] theorem length_readings (data : ProfilingData) :
    data.readings.length = data.samples.length := List.length_map _

end ProfilingData

namespace SentryProfilerState
variable (state : SentryProfilerState) (backtrace : Backtrace) (date : ℚ)

@[simp] theorem readings_clear : state.clear.copyProfilingData.readings = [] := rfl

/-- What was read before a backtrace is read the same after it. -/
theorem read_appendBacktrace {sample : SentrySample} {recorded : RecordedSample}
    (hread : state.copyProfilingData.read sample = some recorded) :
    (state.appendBacktrace backtrace date).copyProfilingData.read sample = some recorded := by
  obtain ⟨stack, frames, hstack, hframes, rfl⟩ := ProfilingData.read_eq_some.mp hread
  apply ProfilingData.read_eq_some.mpr
  refine ⟨stack, frames, ?_, ?_, rfl⟩
  · exact getElem?_of_prefix (Table.prefix_intern _ _) hstack
  · exact resolve_of_prefix (Table.prefix_internAll _ _) hframes

/-- A backtrace is read as it was appended. -/
theorem readings_appendBacktrace (readable : state.copyProfilingData.Readable) :
    (state.appendBacktrace backtrace date).copyProfilingData.readings =
      state.copyProfilingData.readings ++ [some (backtrace.sample date)] := by
  have hsamples : (state.appendBacktrace backtrace date).copyProfilingData.samples =
      state.copyProfilingData.samples ++ [⟨backtrace.absoluteTimestamp, date,
        (state.mutableState.stacks.intern (state.mutableState.frames.internAll
          (backtrace.addresses.map fun address =>
            ⟨sentry_formatHexAddressUInt64 address⟩)).2).2,
        backtrace.threadMetadata.threadID⟩] := rfl
  unfold ProfilingData.readings
  rw [hsamples, List.map_append, List.map_singleton]
  congr 1
  · apply List.map_congr_left
    intro sample hsample
    obtain ⟨recorded, hread⟩ := Option.isSome_iff_exists.mp (readable sample hsample)
    rw [hread]
    exact state.read_appendBacktrace backtrace date hread
  · congr 1
    apply ProfilingData.read_eq_some.mpr
    refine ⟨_, _, Table.getElem?_intern _ stackKey_injective _, ?_, rfl⟩
    exact Table.resolve_internAll _ instruction_addr_injective _

theorem readable_appendBacktrace (readable : state.copyProfilingData.Readable) :
    (state.appendBacktrace backtrace date).copyProfilingData.Readable := by
  rw [ProfilingData.readable_iff] at readable ⊢
  rw [state.readings_appendBacktrace backtrace date ((ProfilingData.readable_iff _).mpr readable)]
  exact List.forall_mem_append.mpr ⟨readable, List.forall_mem_singleton.mpr rfl⟩

end SentryProfilerState

/-- The data of a chunk is copied and cleared before it is sent. -/
structure Sampling where
  state : SentryProfilerState
  transmitting : Option ProfilingData
  chunks : List ProfilingData
  appended : List RecordedSample

namespace Sampling

inductive Call where
  | cacheMainThreadID (currentThread : UInt64)
  | appendBacktrace (backtrace : Backtrace) (date : ℚ)
  | copyProfilingData
  | clear

def start : Sampling := ⟨.init, none, [], []⟩

/-- One chunk is transmitted at a time. -/
def step (s : Sampling) : Call → Option Sampling
  | .cacheMainThreadID currentThread =>
    some { s with state := s.state.cacheMainThreadID currentThread }
  | .appendBacktrace backtrace date => some { s with
      state := s.state.appendBacktrace backtrace date
      appended := s.appended ++ [backtrace.sample date] }
  | .copyProfilingData =>
    if s.transmitting.isSome then none
    else some { s with transmitting := some s.state.copyProfilingData }
  | .clear => s.transmitting.map fun data =>
    { s with state := s.state.clear, transmitting := none, chunks := s.chunks ++ [data] }

/-- What the chunks say, one after the other, and what is still collected. -/
def readings (s : Sampling) : List (Option RecordedSample) :=
  s.chunks.flatMap ProfilingData.readings ++ s.state.copyProfilingData.readings

/-- Each sample is in one chunk or in what is still collected. -/
structure Correct (s : Sampling) : Prop where
  complete : s.readings = s.appended.map some
  closed : ∀ chunk ∈ s.chunks, chunk.Closed

/-- No sample comes between the copy and the clear. -/
def InTime (s : Sampling) : Call → Prop
  | .clear => ∀ data ∈ s.transmitting,
    s.state.mutableState.samples.length = data.samples.length
  | _ => True

structure Inv (s : Sampling) : Prop where
  complete : s.readings = s.appended.map some
  collected : s.state.copyProfilingData.Readable
  closed : ∀ chunk ∈ s.chunks, chunk.Closed
  transmitting : ∀ data ∈ s.transmitting, data.Readable ∧
    ∃ newer, s.state.copyProfilingData.readings = data.readings ++ newer

theorem Inv.start : start.Inv where
  complete := rfl
  collected := List.forall_mem_nil _
  closed := List.forall_mem_nil _
  transmitting := by
    rintro data ⟨⟩

section Steps
variable {s s' : Sampling}

theorem Inv.appendBacktrace (inv : s.Inv) (backtrace : Backtrace) (date : ℚ) :
    ({ s with
      state := s.state.appendBacktrace backtrace date
      appended := s.appended ++ [backtrace.sample date] } : Sampling).Inv := by
  have happend := s.state.readings_appendBacktrace backtrace date inv.collected
  refine ⟨?_, s.state.readable_appendBacktrace backtrace date inv.collected, inv.closed, ?_⟩
  · have hcomplete := inv.complete
    unfold readings at hcomplete ⊢
    dsimp only
    rw [happend, ← List.append_assoc, hcomplete, List.map_append]
    rfl
  · intro data hdata
    obtain ⟨hreadable, newer, hnewer⟩ := inv.transmitting data hdata
    refine ⟨hreadable, newer ++ [some (backtrace.sample date)], ?_⟩
    dsimp only
    rw [happend, hnewer, List.append_assoc]

/-- The samples that are dropped are those after the copy. -/
theorem Inv.readings_clear (inv : s.Inv) {data : ProfilingData} (hdata : data ∈ s.transmitting) :
    ∃ newer, s.appended.map some = ({ s with
        state := s.state.clear, transmitting := none, chunks := s.chunks ++ [data] } :
          Sampling).readings ++ newer ∧
      s.state.mutableState.samples.length = data.samples.length + newer.length := by
  obtain ⟨-, newer, hnewer⟩ := inv.transmitting data hdata
  refine ⟨newer, ?_, ?_⟩
  · rw [← inv.complete]
    unfold readings
    simp only [List.flatMap_append, List.flatMap_singleton, SentryProfilerState.readings_clear,
      List.append_nil]
    rw [hnewer, List.append_assoc]
  · have hlength := congrArg List.length hnewer
    rw [List.length_append, ProfilingData.length_readings, ProfilingData.length_readings] at hlength
    exact hlength

theorem clear_cases (hstep : s.step .clear = some s') : ∃ data ∈ s.transmitting, s' = { s with
    state := s.state.clear, transmitting := none, chunks := s.chunks ++ [data] } := by
  obtain ⟨data, hdata, rfl⟩ := Option.map_eq_some_iff.mp hstep
  exact ⟨data, hdata, rfl⟩

theorem Inv.step (inv : s.Inv) {call : Call} (inTime : s.InTime call)
    (hstep : s.step call = some s') : s'.Inv := by
  cases call with
  | cacheMainThreadID currentThread =>
    cases hstep
    exact ⟨inv.complete, inv.collected, inv.closed, inv.transmitting⟩
  | appendBacktrace backtrace date =>
    cases hstep
    exact inv.appendBacktrace backtrace date
  | copyProfilingData =>
    unfold Sampling.step at hstep
    dsimp only at hstep
    split at hstep
    · cases hstep
    · cases hstep
      refine ⟨inv.complete, inv.collected, inv.closed, ?_⟩
      rintro data ⟨⟩
      exact ⟨inv.collected, [], (List.append_nil _).symm⟩
  | clear =>
    obtain ⟨data, hdata, rfl⟩ := clear_cases hstep
    obtain ⟨newer, happended, hlength⟩ := inv.readings_clear hdata
    have hnone : newer = [] := by
      have hsame := inTime data hdata
      exact List.length_eq_zero_iff.mp (by omega)
    rw [hnone, List.append_nil] at happended
    refine ⟨happended.symm, List.forall_mem_nil _, ?_, ?_⟩
    · exact List.forall_mem_append.mpr
        ⟨inv.closed, List.forall_mem_singleton.mpr (inv.transmitting data hdata).1.closed⟩
    · rintro data ⟨⟩

/-- A sample after the copy is lost at the clear. -/
theorem Inv.not_correct_step (inv : s.Inv) {call : Call} (late : ¬ s.InTime call)
    (hstep : s.step call = some s') : ¬ s'.Correct := by
  cases call with
  | cacheMainThreadID currentThread => exact absurd trivial late
  | appendBacktrace backtrace date => exact absurd trivial late
  | copyProfilingData => exact absurd trivial late
  | clear =>
    obtain ⟨data, hdata, rfl⟩ := clear_cases hstep
    obtain ⟨newer, happended, hlength⟩ := inv.readings_clear hdata
    intro correct
    have hnone : newer = [] := by
      have hall := correct.complete
      dsimp only at hall
      rw [happended] at hall
      exact List.self_eq_append_right.mp hall
    apply late
    intro other hother
    rw [Option.mem_def, Option.mem_def.mp hdata] at hother
    cases hother
    rw [hlength, hnone]
    rfl

end Steps

/-- Each sample is in one chunk exactly in the runs in which no sample is appended between a copy
and its clear. -/
theorem always_carried_iff_inTime (calls : List Call) :
    Always step Correct start calls ↔ Allowed step InTime start calls :=
  always_iff_allowed (fun _ inv => ⟨inv.complete, inv.closed⟩)
    (fun _ _ _ inv hok hstep => inv.step hok hstep)
    (fun _ _ _ inv hlate hstep => inv.not_correct_step hlate hstep) Inv.start calls

/-- A sample of one frame. -/
def exampleBacktrace : Backtrace := ⟨⟨1, "main", 31⟩, 1000, [4096]⟩

/-- The sample that is taken while a chunk is copied and cleared is in no chunk. -/
theorem sample_between_copy_and_clear_is_lost :
    ¬ ∀ calls, Always step Correct start calls := by
  intro h
  have hrun : (exec step start
      [.copyProfilingData, .appendBacktrace exampleBacktrace 0, .clear]).map (fun s =>
        (s.readings, s.appended.length)) = some ([], 1) := by
    decide +kernel
  obtain ⟨s, hexec, hs⟩ := Option.map_eq_some_iff.mp hrun
  obtain ⟨hreadings, happended⟩ := Prod.mk.inj hs
  have hcomplete := ((h _).exec hexec).complete
  rw [hreadings] at hcomplete
  have hlength := congrArg List.length hcomplete
  rw [List.length_map, happended] at hlength
  cases hlength

end Sampling

end SentryCocoa.Profiling
