import SentryCocoa.Client
import SentryCocoa.Library.Windows
import SentryCocoa.ProfilerTables
import SentryCocoa.TraceProfiler

/-! The part of a profile that belongs to a transaction. The samples are cut to the time of the
transaction, and their times are counted from its start. -/
namespace SentryCocoa.Profiling
open SentryCocoa.Foundation SentryCocoa.DataCategory SentryCocoa.Library.Windows
open Client (NSArray)
open TraceProfiling (SentryProfilerTruncationReason)

variable {α : Type}

/-- What Foundation raises. -/
inductive NSException where
  | range
  deriving DecidableEq

structure NSRange where
  location : UInt64
  length : UInt64

/-- The index is `NSNotFound` if there is none. -/
def indexOfObjectPassingTest (array : NSArray α) (predicate : α → Bool) : Option UInt64 :=
  (array.objects.findIdx? predicate).map UInt64.ofNat

/-- With `NSEnumerationReverse`. -/
def indexOfObjectReverse (array : NSArray α) (predicate : α → Bool) : Option UInt64 :=
  (lastIdx? predicate array.objects).map UInt64.ofNat

/-- The objects at the indices of a range. -/
def objectsAtIndexes (array : NSArray α) (indices : NSRange) : Except NSException (List α) :=
  if indices.location.toNat + indices.length.toNat ≤ array.objects.length then
    .ok ((array.objects.drop indices.location.toNat).take indices.length.toNat)
  else .error .range

/-- The range from the first sample of the transaction to the last one. -/
def slicedRange (samples : NSArray SentrySample) (startSystemTime endSystemTime : UInt64) :
    Option NSRange :=
  match indexOfObjectPassingTest samples fun sample =>
      sample.absoluteTimestamp ≥ startSystemTime with
  | none => none
  | some firstIndex =>
    match indexOfObjectReverse samples fun sample =>
        sample.absoluteTimestamp ≤ endSystemTime with
    | none => none
    | some lastIndex => some ⟨firstIndex, (lastIndex - firstIndex) + 1⟩

def slicedProfileSamples (samples : NSArray SentrySample)
    (startSystemTime endSystemTime : UInt64) : Except NSException (Option (List SentrySample)) :=
  if samples.count = 0 then .ok none
  else
    match slicedRange samples startSystemTime endSystemTime with
    | none => .ok none
    | some range => (objectsAtIndexes samples range).map some

/-! ## Serialization -/

def orderedChronologically (a b : UInt64) : Bool := b ≥ a

def getDurationNs (startTimestamp endTimestamp : UInt64) : UInt64 :=
  if endTimestamp < startTimestamp then 0 else endTimestamp - startTimestamp

structure SerializedSample where
  elapsed_since_start_ns : String
  thread_id : String
  stack_id : Nat
  deriving DecidableEq

def serializedSample (startSystemTime : UInt64) (sample : SentrySample) : SerializedSample where
  elapsed_since_start_ns :=
    sentry_stringForUInt64 (getDurationNs startSystemTime sample.absoluteTimestamp)
  thread_id := sentry_stringForUInt64 sample.threadID
  stack_id := sample.stackIndex

def serializedTraceProfileSamplesWithRelativeTimestamps (samples : List SentrySample)
    (startSystemTime : UInt64) : List SerializedSample :=
  samples.filterMap fun sample =>
    if orderedChronologically startSystemTime sample.absoluteTimestamp then
      some (serializedSample startSystemTime sample)
    else none

/-- A recorded value of the screen. -/
structure FrameInfo where
  timestamp : UInt64
  value : ℚ

structure SerializedMetricEntry where
  elapsed_since_start_ns : String
  value : ℚ
  deriving DecidableEq

/-- The entries of the loop, and the value of the last one before the transaction. -/
def sliceFrameInfo (startSystemTime endSystemTime : UInt64) :
    List FrameInfo → Option ℚ → List SerializedMetricEntry × Option ℚ
  | [], nearestPredecessorValue => ([], nearestPredecessorValue)
  | obj :: rest, nearestPredecessorValue =>
    if ¬orderedChronologically startSystemTime obj.timestamp then
      sliceFrameInfo startSystemTime endSystemTime rest (some obj.value)
    else
      let others := sliceFrameInfo startSystemTime endSystemTime rest nearestPredecessorValue
      if ¬orderedChronologically obj.timestamp endSystemTime then others
      else
        (⟨sentry_stringForUInt64 (getDurationNs startSystemTime obj.timestamp), obj.value⟩ ::
          others.1, others.2)

def sliceTraceProfileGPUData (frameInfo : List FrameInfo) (startSystemTime endSystemTime : UInt64)
    (useMostRecentRecording : Bool) : List SerializedMetricEntry :=
  let sliced := sliceFrameInfo startSystemTime endSystemTime frameInfo none
  match sliced.2 with
  | some value =>
    if useMostRecentRecording ∧ sliced.1 = [] then [⟨"0", value⟩] else sliced.1
  | none => sliced.1

structure SentryScreenFrames where
  slowFrameTimestamps : List FrameInfo
  frozenFrameTimestamps : List FrameInfo
  frameRateTimestamps : List FrameInfo

structure Metric where
  unit : String
  values : List SerializedMetricEntry

/-- The gathered metrics with those of the screen. -/
def measurements (serializedMetrics : NSDictionary Metric) (gpuData : SentryScreenFrames)
    (startSystemTime endSystemTime : UInt64) : NSDictionary Metric :=
  let slice (frameInfo : List FrameInfo) (useMostRecentFrameRate : Bool) :=
    sliceTraceProfileGPUData frameInfo startSystemTime endSystemTime useMostRecentFrameRate
  let slowFrames := slice gpuData.slowFrameTimestamps false
  let frozenFrames := slice gpuData.frozenFrameTimestamps false
  let frameRates := slice gpuData.frameRateTimestamps true
  let metrics := if slowFrames = [] then serializedMetrics
    else serializedMetrics.insert "slow_frame_renders" ⟨"nanosecond", slowFrames⟩
  let metrics := if frozenFrames = [] then metrics
    else metrics.insert "frozen_frame_renders" ⟨"nanosecond", frozenFrames⟩
  if (slowFrames = [] ∧ frozenFrames = []) ∨ frameRates = [] then metrics
  else metrics.insert "screen_frame_rates" ⟨"hz", frameRates⟩

/-- What `copyProfilingData` gives, with the samples as an array. -/
structure TraceProfileData where
  samples : NSArray SentrySample
  «stacks» : List (List Nat)
  frames : List Frame
  threadMetadata : NSDictionary Metadata

structure Profile where
  samples : List SerializedSample
  «stacks» : List (List Nat)
  frames : List Frame
  thread_metadata : NSDictionary Metadata

structure Payload where
  profile : Profile
  version : String
  truncation_reason : String
  measurements : Option (NSDictionary Metric)

/-- A payload, or what is recorded as lost. -/
inductive TraceProfile where
  | payload (payload : Payload)
  | lost (category : SentryDataCategory) (reason : SentryDiscardReason)

def truncationReasonName : SentryProfilerTruncationReason → String
  | .normal => "normal"
  | .appMovedToBackground => "backgrounded"
  | .timeout => "timeout"

def serializedTraceProfileData (profileData : TraceProfileData)
    (startSystemTime endSystemTime : UInt64) (truncationReason : String)
    (serializedMetrics : NSDictionary Metric) (gpuData : SentryScreenFrames) :
    Except NSException TraceProfile := do
  if profileData.samples.count < 2 then .ok (.lost .profile .eventProcessor)
  else
    let slicedSamples :=
      (← slicedProfileSamples profileData.samples startSystemTime endSystemTime).getD []
    if slicedSamples.length < 2 then .ok (.lost .profile .eventProcessor)
    else
      let metrics := measurements serializedMetrics gpuData startSystemTime endSystemTime
      .ok (.payload {
        profile := {
          samples := serializedTraceProfileSamplesWithRelativeTimestamps slicedSamples
            startSystemTime
          «stacks» := profileData.stacks
          frames := profileData.frames
          thread_metadata := profileData.threadMetadata }
        version := "1"
        truncation_reason := truncationReason
        measurements := if metrics.count > 0 then some metrics else none })

/-! ## Samples in the time of the transaction -/

theorem toNat_ofNat_index (array : NSArray α) {i : Nat} (h : i < array.objects.length) :
    (UInt64.ofNat i).toNat = i := by
  have hcount := array.length_lt
  rw [UInt64.toNat_ofNat']
  omega

/-- The samples of an array are in the order of their times. -/
def Chronological (samples : NSArray SentrySample) : Prop :=
  samples.objects.Pairwise fun sample sample' =>
    sample.absoluteTimestamp ≤ sample'.absoluteTimestamp

/-- Taken during the transaction. -/
def Within (startSystemTime endSystemTime : UInt64) (sample : SentrySample) : Prop :=
  startSystemTime ≤ sample.absoluteTimestamp ∧ sample.absoluteTimestamp ≤ endSystemTime

instance (startSystemTime endSystemTime : UInt64) :
    DecidablePred (Within startSystemTime endSystemTime) :=
  fun _ => inferInstanceAs (Decidable (_ ∧ _))

section Slices

variable {samples : NSArray SentrySample} {startSystemTime endSystemTime : UInt64}
  (hsorted : Chronological samples) (hle : startSystemTime ≤ endSystemTime)
include hsorted hle

/-- Although it is computed without a sign, the length of the range is what is between the two
indices, and nothing if there is no sample between them. -/
theorem slicedRange_spec {range : NSRange}
    (h : slicedRange samples startSystemTime endSystemTime = some range) :
    ∃ firstIndex lastIndex,
      indexOfObjectPassingTest samples (fun sample =>
        sample.absoluteTimestamp ≥ startSystemTime) = some firstIndex ∧
      indexOfObjectReverse samples (fun sample =>
        sample.absoluteTimestamp ≤ endSystemTime) = some lastIndex ∧
      firstIndex.toNat ≤ lastIndex.toNat + 1 ∧
      range.location = firstIndex ∧
      range.length.toNat = lastIndex.toNat + 1 - firstIndex.toNat ∧
      lastIndex.toNat < samples.objects.length ∧
      samples.objects.filter (Within startSystemTime endSystemTime ·) =
        (samples.objects.drop firstIndex.toNat).take (lastIndex.toNat + 1 - firstIndex.toNat) := by
  unfold slicedRange at h
  split at h
  · cases h
  · rename_i firstIndex hfirstIndex
    split at h
    · cases h
    · rename_i lastIndex hlastIndex
      obtain ⟨first, hfirst, rfl⟩ := Option.map_eq_some_iff.mp hfirstIndex
      obtain ⟨last, hlast, rfl⟩ := Option.map_eq_some_iff.mp hlastIndex
      cases h
      obtain ⟨hmeet, hlt, hfilter⟩ :=
        filter_window (fun sample : SentrySample => sample.absoluteTimestamp.toNat) hsorted hle
          hfirst hlast
      have hfound := (List.findIdx?_eq_some_iff_findIdx_eq.mp hfirst).1
      have hcount := samples.length_lt
      have hfirstNat := toNat_ofNat_index samples hfound
      have hlastNat := toNat_ofNat_index samples hlt
      refine ⟨_, _, hfirstIndex, hlastIndex, ?_, rfl, ?_, ?_, ?_⟩
      · rw [hfirstNat, hlastNat]
        exact hmeet
      · rw [UInt64.toNat_add, UInt64.toNat_sub, hfirstNat, hlastNat]
        simp only [UInt64.reduceToNat]
        omega
      · rw [hlastNat]
        exact hlt
      · rw [hfirstNat, hlastNat]
        exact hfilter

theorem slicedProfileSamples_eq :
    ∃ sliced, slicedProfileSamples samples startSystemTime endSystemTime = .ok sliced ∧
      sliced.getD [] = samples.objects.filter (Within startSystemTime endSystemTime ·) := by
  unfold slicedProfileSamples
  split
  · rename_i hcount
    have hlength := congrArg UInt64.toNat hcount
    rw [NSArray.count, UInt64.toNat_ofNat'] at hlength
    have hbound := samples.length_lt
    have hnil : samples.objects = [] := by
      apply List.eq_nil_of_length_eq_zero
      simp only [UInt64.reduceToNat] at hlength
      omega
    rw [hnil]
    exact ⟨none, rfl, rfl⟩
  · split
    · rename_i hnone
      refine ⟨none, rfl, Eq.symm (List.filter_eq_nil_iff.mpr fun sample hsample hwithin => ?_)⟩
      rw [decide_eq_true_iff] at hwithin
      unfold slicedRange at hnone
      split at hnone
      · rename_i hfirst
        have hall := List.findIdx?_eq_none_iff.mp (Option.map_eq_none_iff.mp hfirst)
        exact of_decide_eq_false (hall sample hsample) hwithin.1
      · split at hnone
        · rename_i hlast
          have hall := lastIdx?_none (Option.map_eq_none_iff.mp hlast)
          exact of_decide_eq_false (hall sample hsample) hwithin.2
        · cases hnone
    · rename_i range hrange
      obtain ⟨firstIndex, lastIndex, -, -, hmeet, hlocation, hlength, hlt, hfilter⟩ :=
        slicedRange_spec hsorted hle hrange
      refine ⟨some ((samples.objects.drop firstIndex.toNat).take _), ?_, hfilter.symm⟩
      unfold objectsAtIndexes
      rw [hlocation, hlength, if_pos (by omega)]
      rfl

end Slices

/-! ## Times from the start of the transaction -/

theorem getDurationNs_toNat {startTimestamp endTimestamp : UInt64}
    (h : startTimestamp ≤ endTimestamp) :
    (getDurationNs startTimestamp endTimestamp).toNat =
      endTimestamp.toNat - startTimestamp.toNat := by
  unfold getDurationNs
  rw [if_neg (UInt64.not_lt.mpr h), UInt64.toNat_sub_of_le _ _ h]

/-- A sample with the time since the start, as numbers without a bound. -/
def elapsedSample (startSystemTime : UInt64) (sample : SentrySample) : SerializedSample where
  elapsed_since_start_ns := toString (sample.absoluteTimestamp.toNat - startSystemTime.toNat)
  thread_id := toString sample.threadID.toNat
  stack_id := sample.stackIndex

theorem serializedSamples_eq {samples : List SentrySample} {startSystemTime : UInt64}
    (h : ∀ sample ∈ samples, startSystemTime ≤ sample.absoluteTimestamp) :
    serializedTraceProfileSamplesWithRelativeTimestamps samples startSystemTime =
      samples.map (elapsedSample startSystemTime) := by
  unfold serializedTraceProfileSamplesWithRelativeTimestamps
  rw [← List.filterMap_eq_map]
  apply List.filterMap_congr
  intro sample hsample
  have hordered : orderedChronologically startSystemTime sample.absoluteTimestamp = true :=
    decide_eq_true (h sample hsample)
  rw [if_pos hordered, Function.comp_apply]
  congr 1
  unfold serializedSample elapsedSample sentry_stringForUInt64
  rw [getDurationNs_toNat (h sample hsample)]

/-- The same for the values of the screen. -/
theorem sliceFrameInfo_fst (startSystemTime endSystemTime : UInt64) (frameInfo : List FrameInfo)
    (nearestPredecessorValue : Option ℚ) :
    (sliceFrameInfo startSystemTime endSystemTime frameInfo nearestPredecessorValue).1 =
      (frameInfo.filter fun obj =>
        startSystemTime ≤ obj.timestamp ∧ obj.timestamp ≤ endSystemTime).map fun obj =>
          ⟨toString (obj.timestamp.toNat - startSystemTime.toNat), obj.value⟩ := by
  induction frameInfo generalizing nearestPredecessorValue with
  | nil => rfl
  | cons obj rest ih =>
    rw [sliceFrameInfo]
    unfold orderedChronologically
    by_cases hstart : startSystemTime ≤ obj.timestamp
    · by_cases hend : obj.timestamp ≤ endSystemTime
      · rw [if_neg (by simpa using hstart)]
        dsimp only
        rw [if_neg (by simpa using hend), List.filter_cons_of_pos (by simp [hstart, hend]),
          List.map_cons, ih]
        unfold sentry_stringForUInt64
        rw [getDurationNs_toNat hstart]
      · rw [if_neg (by simpa using hstart)]
        dsimp only
        rw [if_pos (by simpa using hend), List.filter_cons_of_neg (by simp [hend]), ih]
    · rw [if_pos (by simpa using hstart), List.filter_cons_of_neg (by simp [hstart]), ih]

/-- The samples of the transaction are cut out without an exception, and all of them are
serialized with the time from its start. -/
theorem serializedTraceProfileData_spec (profileData : TraceProfileData)
    (hsorted : Chronological profileData.samples) {startSystemTime endSystemTime : UInt64}
    (hle : startSystemTime ≤ endSystemTime) (truncationReason : String)
    (serializedMetrics : NSDictionary Metric) (gpuData : SentryScreenFrames) :
    (∃ sliced,
      slicedProfileSamples profileData.samples startSystemTime endSystemTime = .ok sliced ∧
        sliced.getD [] =
          profileData.samples.objects.filter (Within startSystemTime endSystemTime ·)) ∧
    (∀ range, slicedRange profileData.samples startSystemTime endSystemTime = some range →
      ∃ firstIndex lastIndex : Nat,
        firstIndex ≤ lastIndex + 1 ∧ range.location.toNat = firstIndex ∧
          range.length.toNat = lastIndex + 1 - firstIndex ∧
          range.location.toNat + range.length.toNat ≤ profileData.samples.objects.length) ∧
    ∃ result, serializedTraceProfileData profileData startSystemTime endSystemTime
        truncationReason serializedMetrics gpuData = .ok result ∧
      (2 ≤ (profileData.samples.objects.filter
        (Within startSystemTime endSystemTime ·)).length ↔ ∃ payload, result = .payload payload) ∧
      ∀ payload, result = .payload payload →
        payload.profile.samples = (profileData.samples.objects.filter
          (Within startSystemTime endSystemTime ·)).map (elapsedSample startSystemTime) ∧
        ∀ sample ∈ profileData.samples.objects.filter (Within startSystemTime endSystemTime ·),
          startSystemTime.toNat ≤ sample.absoluteTimestamp.toNat := by
  obtain ⟨sliced, hsliced, hwithin⟩ := slicedProfileSamples_eq hsorted hle
  have hstart : ∀ sample ∈ sliced.getD [], startSystemTime ≤ sample.absoluteTimestamp := by
    intro sample hsample
    rw [hwithin] at hsample
    exact (of_decide_eq_true (List.mem_filter.mp hsample).2).1
  refine ⟨⟨sliced, hsliced, hwithin⟩, fun range hrange => ?_, ?_⟩
  · obtain ⟨firstIndex, lastIndex, -, -, hmeet, rfl, hlength, hlt, -⟩ :=
      slicedRange_spec hsorted hle hrange
    exact ⟨_, _, hmeet, rfl, hlength, by omega⟩
  · rw [← hwithin]
    unfold serializedTraceProfileData
    split
    · rename_i hfew
      have hcount : profileData.samples.objects.length < 2 := by
        rw [UInt64.lt_iff_toNat_lt, NSArray.count, UInt64.toNat_ofNat'] at hfew
        have hbound := profileData.samples.length_lt
        simp only [UInt64.reduceToNat] at hfew
        omega
      have hless : (sliced.getD []).length ≤ profileData.samples.objects.length := by
        rw [hwithin]
        exact List.length_filter_le _ _
      refine ⟨_, rfl, ⟨fun h => absurd h (by omega), ?_⟩, ?_⟩
      · rintro ⟨payload, h⟩
        cases h
      · intro payload h
        cases h
    · rw [hsliced]
      dsimp only [bind, Except.bind]
      split
      · rename_i hfew
        refine ⟨_, rfl, ⟨fun h => absurd h (by omega), ?_⟩, ?_⟩
        · rintro ⟨payload, h⟩
          cases h
        · intro payload h
          cases h
      · rename_i hmany
        refine ⟨_, rfl, ⟨fun _ => ⟨_, rfl⟩, fun _ => by omega⟩, ?_⟩
        intro payload h
        cases h
        exact ⟨serializedSamples_eq hstart, hstart⟩

/-- Of three samples the last two are taken during the transaction. -/
def exampleProfile : TraceProfileData where
  samples := ⟨[⟨10, 0, 0, 1⟩, ⟨20, 0, 0, 1⟩, ⟨30, 0, 0, 1⟩], by decide⟩
  «stacks» := [[0]]
  frames := [⟨sentry_formatHexAddressUInt64 4096⟩]
  threadMetadata := ∅

theorem serializedTraceProfileData_spec_example :
    (∃ sliced, slicedProfileSamples exampleProfile.samples 15 30 = .ok sliced ∧
      sliced.getD [] = exampleProfile.samples.objects.filter (Within 15 30 ·)) ∧
    (∀ range, slicedRange exampleProfile.samples 15 30 = some range →
      ∃ firstIndex lastIndex : Nat,
        firstIndex ≤ lastIndex + 1 ∧ range.location.toNat = firstIndex ∧
          range.length.toNat = lastIndex + 1 - firstIndex ∧
          range.location.toNat + range.length.toNat ≤ exampleProfile.samples.objects.length) ∧
    ∃ result, serializedTraceProfileData exampleProfile 15 30 "normal" ∅ ⟨[], [], []⟩ =
        .ok result ∧
      (2 ≤ (exampleProfile.samples.objects.filter (Within 15 30 ·)).length ↔
        ∃ payload, result = .payload payload) ∧
      ∀ payload, result = .payload payload →
        payload.profile.samples = (exampleProfile.samples.objects.filter
          (Within 15 30 ·)).map (elapsedSample 15) ∧
        ∀ sample ∈ exampleProfile.samples.objects.filter (Within 15 30 ·),
          (15 : UInt64).toNat ≤ sample.absoluteTimestamp.toNat :=
  serializedTraceProfileData_spec exampleProfile (by unfold Chronological; decide) (by decide)
    "normal" ∅ ⟨[], [], []⟩

end SentryCocoa.Profiling
