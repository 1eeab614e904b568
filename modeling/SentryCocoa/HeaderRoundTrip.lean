import SentryCocoa.Serialization

/-! The header of an envelope as a dictionary, and what is read back from it. Of the trace
context the sampling decision is lost; in its place the sample rate is read. -/
namespace SentryCocoa.Serialization
open SentryCocoa.Foundation SentryCocoa.Envelope

theorem objectForKey_addEntries_singleton (d : NSDictionary Value) (key key' : String)
    (value : Value) :
    (d.addEntriesFromDictionary (AList.singleton key value)).objectForKey key' =
      if key' = key then some value else d.objectForKey key' := by
  rw [objectForKey_addEntriesFromDictionary]
  let entry : Sigma fun _ : String => Value := ⟨key, value⟩
  have hsingleton : NSDictionary.objectForKey (AList.singleton key value) key' =
      List.dlookup key' [entry] := rfl
  rw [hsingleton]
  by_cases h : key' = key
  · subst h
    rw [List.dlookup_cons_eq, if_pos rfl, Option.some_or]
  · rw [List.dlookup_cons_ne [] entry h, List.dlookup_nil, if_neg h, Option.none_or]

theorem SentrySdkInfo.serialize_stable (info : SentrySdkInfo) :
    ∃ sdk, info.serialize = AList.singleton "sdk" (Value.ofDictionary sdk) ∧
      (Value.ofDictionary sdk).Stable := by
  have stable : ∀ name : String, (Value.ofDictionary (((∅ : NSDictionary Value).insert "name"
      (.string name)).insert "version" (.string info.version))).Stable := by
    intro name
    apply Value.Stable.ofDictionary
    intro key value h
    simp only [objectForKey_insert, objectForKey_empty] at h
    split_ifs at h <;> cases h <;> exact .string _
  refine ⟨_, rfl, ?_⟩
  cases hname : SentrySdkInfo.getPackageName info.packageManager info.name with
  | none => exact stable info.name
  | some name =>
    apply Value.Stable.ofDictionary
    intro key value h
    simp only [objectForKey_insert, objectForKey_empty] at h
    split_ifs at h <;> cases h <;> first | exact .string _ | exact stable name

/-- Every entry is a text, and there is none for a key that is read as a dictionary. -/
structure Texts (d : NSDictionary Value) : Prop where
  string : ∀ key value, d.objectForKey key = some value → ∃ text, value = .string text
  user : d.objectForKey "user" = none

theorem Texts.insert {d : NSDictionary Value} (h : Texts d) {key : String} (hkey : "user" ≠ key)
    (text : String) : Texts (d.insert key (.string text)) := by
  constructor
  · intro key' value hvalue
    rw [objectForKey_insert] at hvalue
    split at hvalue
    · cases hvalue
      exact ⟨text, rfl⟩
    · exact h.string key' value hvalue
  · rw [objectForKey_insert, if_neg hkey]
    exact h.user

theorem Texts.erase {d : NSDictionary Value} (h : Texts d) (key : String) :
    Texts (d.removeObjectForKey key) := by
  constructor
  · intro key' value hvalue
    rw [objectForKey_removeObjectForKey] at hvalue
    split at hvalue
    · cases hvalue
    · exact h.string key' value hvalue
  · rw [objectForKey_removeObjectForKey, h.user, ite_self]

theorem Texts.add {d : NSDictionary Value} (h : Texts d) (present value : Option String)
    {key : String} (hkey : "user" ≠ key) :
    Texts (if present.isSome then d.setValue (value.map .string) key else d) := by
  split
  · cases value with
    | none => exact h.erase key
    | some text => exact h.insert hkey text
  · exact h

theorem SentryTraceContext.serialize_texts (context : SentryTraceContext) :
    Texts context.serialize := by
  have empty : Texts (∅ : NSDictionary Value) := ⟨fun _ _ h => (nomatch h), rfl⟩
  unfold SentryTraceContext.serialize
  repeat' apply Texts.add
  all_goals first | decide | skip
  exact (empty.insert (by decide) _).insert (by decide) _

theorem Texts.stable {d : NSDictionary Value} (h : Texts d) : (Value.ofDictionary d).Stable := by
  apply Value.Stable.ofDictionary
  intro key value hvalue
  obtain ⟨text, rfl⟩ := h.string key value hvalue
  exact .string text

theorem Texts.stringValue {d : NSDictionary Value} (h : Texts d) (key : String) :
    ∃ text, stringValue ((d.entries.map fun entry => (entry.1, entry.2)).lookup key) = .ok text := by
  rw [Value.lookup_ofDictionary]
  cases hvalue : d.objectForKey key with
  | none => exact ⟨none, rfl⟩
  | some value =>
    obtain ⟨text, rfl⟩ := h.string key value hvalue
    exact ⟨some text, rfl⟩

theorem SentryId.initWithUUIDString_sentryIdString (id : SentryId) :
    SentryId.initWithUUIDString id.sentryIdString = id := by
  have hlower : id.digits.map Char.toLower = id.digits := by
    conv_rhs => rw [← List.map_id id.digits]
    apply List.map_congr_left
    intro c hc
    exact beq_iff_eq.mp (Bool.and_eq_true_iff.mp (List.all_eq_true.mp id.lower c hc)).2
  have hdashed : ¬(id.digits.length = 36 ∧
      [8, 13, 18, 23].all fun i => id.digits[i]? == some '-') := by
    rw [id.length_eq]
    exact fun h => absurd h.1 (by decide)
  unfold SentryId.initWithUUIDString SentryId.sentryIdString
  simp only [String.toList_ofList, if_neg hdashed, hlower]
  rw [dif_pos ⟨id.length_eq, id.lower⟩]

/-- What is left of a trace context when it is read back. -/
def readTraceContext (context : SentryTraceContext) : SentryTraceContext :=
  { context with sampled := if context.sampled.isSome then context.sampleRate else none }

theorem objectForKey_add (d : NSDictionary Value) (present value : Option String)
    (key key' : String) :
    (if present.isSome then d.setValue (value.map .string) key else d).objectForKey key' =
      if key' = key ∧ present.isSome then value.map .string else d.objectForKey key' := by
  cases present with
  | none => simp
  | some text => simp [objectForKey_setValue]

theorem SentryTraceContext.serialize_objectForKey (context : SentryTraceContext) (key : String) :
    context.serialize.objectForKey key =
      if key = "replay_id" ∧ context.replayId.isSome then context.replayId.map .string
      else if key = "sampled" ∧ context.sampled.isSome then context.sampleRate.map .string
      else if key = "sample_rate" ∧ context.sampleRate.isSome then context.sampleRate.map .string
      else if key = "user_segment" ∧ context.userSegment.isSome then
        context.userSegment.map .string
      else if key = "transaction" ∧ context.transaction.isSome then
        context.transaction.map .string
      else if key = "environment" ∧ context.environment.isSome then
        context.environment.map .string
      else if key = "release" ∧ context.releaseName.isSome then context.releaseName.map .string
      else if key = "public_key" then some (.string context.publicKey)
      else if key = "trace_id" then some (.string context.traceId.sentryIdString)
      else none := by
  unfold SentryTraceContext.serialize
  simp only [objectForKey_add, objectForKey_insert, objectForKey_empty]

theorem stringValue_map_string (text : Option String) :
    stringValue (text.map .string) = .ok text := by
  cases text <;> rfl

theorem stringValue_present (text : Option String) :
    stringValue (if text.isSome then text.map .string else none) = .ok text := by
  cases text <;> rfl

theorem stringValue_sampled (sampled sampleRate : Option String) :
    stringValue (if sampled.isSome then sampleRate.map .string else none) =
      .ok (if sampled.isSome then sampleRate else none) := by
  cases sampled with
  | none => rfl
  | some text => exact stringValue_map_string sampleRate

theorem traceContextWithDict_serialize (context : SentryTraceContext) :
    traceContextWithDict (context.serialize.entries.map fun entry => (entry.1, entry.2)) =
      .ok (some (readTraceContext context)) := by
  unfold traceContextWithDict
  simp only [Value.lookup_ofDictionary, SentryTraceContext.serialize_objectForKey, String.reduceEq,
    false_and, true_and, if_false, if_true, stringValue_present, stringValue_sampled]
  have hid := SentryId.initWithUUIDString_sentryIdString context.traceId
  unfold readTraceContext
  conv_rhs => rw [← hid]
  rfl

variable (dates : NSDateFormatter) (header : SentryEnvelopeHeader)

theorem serializedHeader_objectForKey (key : String) :
    (serializedHeader dates header).objectForKey key =
      if key = "sent_at" ∧ header.sentAt.isSome then
        header.sentAt.map fun date => .string (dates.toIso8601String date)
      else if key = "trace" ∧ header.traceContext.isSome then
        header.traceContext.map fun context => .ofDictionary context.serialize
      else if key = "sdk" ∧ header.sdkInfo.isSome then
        header.sdkInfo.bind fun info => info.serialize.objectForKey "sdk"
      else if key = "event_id" then header.eventId.map fun id => .string id.sentryIdString
      else none := by
  unfold serializedHeader
  cases header.sdkInfo with
  | none =>
    cases header.eventId <;> cases header.traceContext <;> cases header.sentAt <;>
      simp only [objectForKey_insert, objectForKey_empty, Option.map_none, Option.map_some,
        Option.isSome_none, Option.isSome_some, and_true, and_false, Bool.false_eq_true, if_false,
        ite_self]
  | some info =>
    obtain ⟨sdk, hsdk, -⟩ := SentrySdkInfo.serialize_stable info
    have hlookup : NSDictionary.objectForKey (AList.singleton "sdk" (Value.ofDictionary sdk)) "sdk" =
        some (Value.ofDictionary sdk) := rfl
    cases header.eventId <;> cases header.traceContext <;> cases header.sentAt <;>
      simp only [objectForKey_insert, objectForKey_empty, objectForKey_addEntries_singleton, hsdk,
        hlookup, Option.map_none, Option.map_some, Option.bind_some, Option.isSome_none,
        Option.isSome_some, and_true, and_false, Bool.false_eq_true, if_false, ite_self]

theorem serializedHeader_stable : (Value.ofDictionary (serializedHeader dates header)).Stable := by
  apply Value.Stable.ofDictionary
  intro key value h
  rw [serializedHeader_objectForKey] at h
  split_ifs at h
  · obtain ⟨_, -, rfl⟩ := Option.map_eq_some_iff.mp h
    exact .string _
  · obtain ⟨context, -, rfl⟩ := Option.map_eq_some_iff.mp h
    exact (SentryTraceContext.serialize_texts context).stable
  · obtain ⟨info, -, hsdk⟩ := Option.bind_eq_some_iff.mp h
    obtain ⟨sdk, hserialize, stable⟩ := SentrySdkInfo.serialize_stable info
    rw [hserialize] at hsdk
    obtain rfl : Value.ofDictionary sdk = value := Option.some.inj hsdk
    exact stable
  · obtain ⟨_, -, rfl⟩ := Option.map_eq_some_iff.mp h
    exact .string _

/-- What is left of a header when it is read back. -/
def readHeaderFields (header : SentryEnvelopeHeader) : SentryEnvelopeHeader where
  eventId := header.eventId
  sdkInfo := header.sdkInfo.map fun info => .initWithName info.name info.version
  traceContext := header.traceContext.map readTraceContext
  sentAt := header.sentAt

theorem sdkInfoWithDict_serializedHeader {info : SentrySdkInfo} (h : header.sdkInfo = some info) :
    sdkInfoWithDict ((serializedHeader dates header).entries.map
      fun entry => (entry.1, entry.2)) = .initWithName info.name info.version := by
  obtain ⟨sdk, hsdk, hname, hversion⟩ : ∃ sdk : NSDictionary Value,
      info.serialize.objectForKey "sdk" = some (.ofDictionary sdk) ∧
        sdk.objectForKey "name" = some (.string info.name) ∧
          sdk.objectForKey "version" = some (.string info.version) := by
    refine ⟨_, rfl, ?_, ?_⟩ <;>
      cases SentrySdkInfo.getPackageName info.packageManager info.name <;>
      simp only [objectForKey_insert, String.reduceEq, if_true, if_false]
  unfold sdkInfoWithDict
  simp only [Value.lookup_ofDictionary, serializedHeader_objectForKey, String.reduceEq,
    false_and, true_and, if_false, h, Option.isSome_some, if_true, Option.bind_some, hsdk,
    Value.ofDictionary, hname, hversion]

theorem sdkInfo_serializedHeader :
    (((serializedHeader dates header).entries.map fun entry => (entry.1, entry.2)).lookup
        "sdk").map (fun _ => sdkInfoWithDict ((serializedHeader dates header).entries.map
          fun entry => (entry.1, entry.2))) =
      header.sdkInfo.map fun info => .initWithName info.name info.version := by
  simp only [Value.lookup_ofDictionary, serializedHeader_objectForKey, String.reduceEq,
    false_and, true_and, if_false]
  cases hinfo : header.sdkInfo with
  | none => rfl
  | some info =>
    rw [sdkInfoWithDict_serializedHeader dates header hinfo]
    rfl

/-- The reader accepts every envelope header that the writer produces. -/
theorem headerWithDictionary_serializedHeader :
    headerWithDictionary dates ((serializedHeader dates header).entries.map
      fun entry => (entry.1, entry.2)) = .ok (readHeaderFields header) := by
  unfold headerWithDictionary readHeaderFields
  rw [sdkInfo_serializedHeader]
  simp only [Value.lookup_ofDictionary, serializedHeader_objectForKey, String.reduceEq,
    false_and, true_and, if_false, if_true]
  obtain ⟨eventId, sdkInfo, traceContext, sentAt⟩ := header
  have hid := fun id => SentryId.initWithUUIDString_sentryIdString id
  have hdate := fun date => dates.fromIso8601String_toIso8601String date
  cases traceContext with
  | none =>
    cases eventId <;> cases sentAt <;>
      simp [stringValue, hid, hdate, bind, Except.bind, pure, Except.pure]
  | some context =>
    have hcontext := traceContextWithDict_serialize context
    cases eventId <;> cases sentAt <;>
      simp [stringValue, hid, hdate, hcontext, bind, Except.bind, pure, Except.pure,
        Value.ofDictionary]

/-! What is lost. -/

/-- The event id, the name and the version of the SDK, and the trace context are the same. -/
structure SameHeader (header read : SentryEnvelopeHeader) : Prop where
  eventId : read.eventId = header.eventId
  sdkInfo : read.sdkInfo.map (fun info => (info.name, info.version)) =
    header.sdkInfo.map fun info => (info.name, info.version)
  traceContext : read.traceContext = header.traceContext

/-- There is no sampling decision, or it has the text of the sample rate. -/
def SentryTraceContext.KeepsSampled (context : SentryTraceContext) : Prop :=
  context.sampled = none ∨ context.sampled = context.sampleRate

theorem readTraceContext_eq_iff (context : SentryTraceContext) :
    readTraceContext context = context ↔ SentryTraceContext.KeepsSampled context := by
  obtain ⟨traceId, publicKey, releaseName, environment, transaction, userSegment, sampleRate,
    sampled, replayId⟩ := context
  unfold readTraceContext SentryTraceContext.KeepsSampled
  cases sampled with
  | none => simp
  | some decision =>
    simp only [Option.isSome_some, if_true, SentryTraceContext.mk.injEq, true_and, and_true,
      reduceCtorEq, false_or]
    exact eq_comm

theorem sameHeader_iff : SameHeader header (readHeaderFields header) ↔
    ∀ context ∈ header.traceContext, SentryTraceContext.KeepsSampled context := by
  constructor
  · intro h context hcontext
    have htrace := h.traceContext
    rw [readHeaderFields, Option.mem_def.mp hcontext] at htrace
    exact (readTraceContext_eq_iff context).mp (Option.some.inj htrace)
  · intro h
    refine ⟨rfl, ?_, ?_⟩
    · rw [readHeaderFields, Option.map_map]
      rfl
    · cases hcontext : header.traceContext with
      | none => rw [readHeaderFields, hcontext]; rfl
      | some context =>
        rw [readHeaderFields, hcontext, Option.map_some,
          (readTraceContext_eq_iff context).mpr (h context hcontext)]

end SentryCocoa.Serialization
