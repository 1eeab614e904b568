import Mathlib.Data.List.AList
import SentryCocoa.Foundation
import SentryCocoa.Library.PercentEncoding

/-! The baggage header of a request: the entries that another vendor may have put there and those
of the trace. Strings are compared scalar by scalar, and what `encodeDictionary` writes is ASCII,
so its characters are scalars. -/
namespace SentryCocoa.Baggage
open SentryCocoa.Foundation SentryCocoa.Library.PercentEncoding

/-! Serialization. -/

def SENTRY_BAGGAGE_MAX_SIZE : Nat := 8192

/-- The alphanumerics outside of ASCII are escaped all the same. -/
def allowedSet (c : Char) : Bool := c.isAlphanum || c = '-' || c = '_' || c = '.'

def addingPercentEncoding (s : String) : String := String.ofList (encode allowedSet s.toList)

def removingPercentEncoding (s : String) : Option String := (decode s.toList).map String.ofList

def componentsSeparatedBy (separator : Char) (s : String) : List String :=
  (s.toList.splitOn separator).map String.ofList

def pairs (d : NSDictionary String) : List (String × String) :=
  d.entries.map fun entry => (entry.1, entry.2)

/-- A dictionary is iterated in some order. -/
structure Iteration where
  entries : NSDictionary String → List (String × String)
  perm : ∀ d, (entries d).Perm (pairs d)

structure Items where
  items : List String
  currentSize : Nat

/-- An item that does not fit is left out; there may be room for a later one. -/
def appendItem (state : Items) (entry : String × String) : Items :=
  let keyDescription := addingPercentEncoding entry.1
  let valueDescription := addingPercentEncoding entry.2
  if keyDescription.isEmpty || valueDescription.isEmpty then state
  else
    let item := keyDescription ++ "=" ++ valueDescription
    if item.length + state.currentSize ≤ SENTRY_BAGGAGE_MAX_SIZE then
      -- One more for the comma that every further item adds.
      { currentSize := state.currentSize + (item.length + 1)
        items := state.items ++ [item] }
    else state

def encodeDictionary (iteration : Iteration) (dictionary : NSDictionary String) : String :=
  let state := (iteration.entries dictionary).foldl appendItem ⟨[], 0⟩
  ",".intercalate (state.items.mergeSort fun item item' => item ≤ item')

/-- The key stays as it is. -/
def decodeProperty (property : String) : Option (String × String) :=
  match componentsSeparatedBy '=' property with
  | [key, value] => (removingPercentEncoding value).map (key, ·)
  | _ => none

def decode (baggage : String) : NSDictionary String :=
  if baggage.isEmpty then ∅
  else (componentsSeparatedBy ',' baggage).foldl
    (fun decoded property =>
      match decodeProperty property with
      | some (key, value) => decoded.insert key value
      | none => decoded) ∅

/-! The entries of the trace. -/

structure SentryBaggage where
  traceId : String
  publicKey : String
  releaseName : Option String
  environment : Option String
  transaction : Option String
  userSegment : Option String
  sampleRate : Option String
  sampled : Option String
  replayId : Option String

namespace SentryBaggage

/-- The original entries with those of the trace set over them. -/
def information (baggage : SentryBaggage) (originalBaggage : NSDictionary String) :
    NSDictionary String :=
  let information := originalBaggage.insert "sentry-trace_id" baggage.traceId
  let information : NSDictionary String := information.insert "sentry-public_key" baggage.publicKey
  let information := information.insertIfPresent baggage.releaseName "sentry-release"
  let information := information.insertIfPresent baggage.environment "sentry-environment"
  let information := information.insertIfPresent baggage.transaction "sentry-transaction"
  let information := information.insertIfPresent baggage.userSegment "sentry-user_segment"
  let information := information.insertIfPresent baggage.sampleRate "sentry-sample_rate"
  let information := information.insertIfPresent baggage.sampled "sentry-sampled"
  information.insertIfPresent baggage.replayId "sentry-replay_id"

def toHTTPHeaderWithOriginalBaggage (iteration : Iteration) (baggage : SentryBaggage)
    (originalBaggage : Option (NSDictionary String)) : String :=
  encodeDictionary iteration (baggage.information (originalBaggage.getD ∅))

end SentryBaggage

/-- The baggage header of a request that takes part in the trace. A header that has a trace
already stays. -/
def addBaggageHeader (iteration : Iteration) (baggage : Option SentryBaggage)
    (header : Option String) : Option String :=
  let baggageHeader := match baggage with
    | some baggage =>
      let originalBaggage := decode (header.getD "")
      if originalBaggage.objectForKey "sentry-trace_id" = none then
        baggage.toHTTPHeaderWithOriginalBaggage iteration (some originalBaggage)
      else ""
    | none => ""
  if 0 < baggageHeader.length then some baggageHeader else header

/-! What the parts of the serialization do. -/

theorem not_allowed_percent : allowedSet '%' = false := by decide

/-- The key is written as it is. -/
def PlainKey (key : String) : Prop := ∀ c ∈ key.toList, stands allowedSet c = true

theorem removingPercentEncoding_addingPercentEncoding (s : String) :
    removingPercentEncoding (addingPercentEncoding s) = some s := by
  unfold removingPercentEncoding addingPercentEncoding
  rw [String.toList_ofList, decode_encode_text not_allowed_percent, Option.map_some,
    String.ofList_toList]

theorem addingPercentEncoding_injective : addingPercentEncoding.Injective := by
  intro s s' h
  have hremove := congrArg removingPercentEncoding h
  simp only [removingPercentEncoding_addingPercentEncoding, Option.some.injEq] at hremove
  exact hremove

theorem addingPercentEncoding_eq_empty {s : String} :
    (addingPercentEncoding s).isEmpty = s.isEmpty := by
  rw [Bool.eq_iff_iff, String.isEmpty_iff, String.isEmpty_iff]
  unfold addingPercentEncoding
  rw [← String.toList_eq_nil_iff, String.toList_ofList, encode_eq_nil, String.toList_eq_nil_iff]

theorem addingPercentEncoding_eq_self {key : String} :
    addingPercentEncoding key = key ↔ PlainKey key := by
  unfold addingPercentEncoding PlainKey
  rw [← encode_eq_self_iff, ← String.toList_inj, String.toList_ofList]

theorem separator_notMem {separator : Char} (hset : allowedSet separator = false)
    (hpercent : separator ≠ '%') (hdigit : digitValue separator = none) (s : String) :
    separator ∉ (addingPercentEncoding s).toList := by
  unfold addingPercentEncoding
  rw [String.toList_ofList]
  exact notMem_encode hset hpercent hdigit s.toList

theorem equals_notMem (s : String) : '=' ∉ (addingPercentEncoding s).toList :=
  separator_notMem (by decide) (by decide) (by decide) s

theorem comma_notMem (s : String) : ',' ∉ (addingPercentEncoding s).toList :=
  separator_notMem (by decide) (by decide) (by decide) s

def item (entry : String × String) : String :=
  addingPercentEncoding entry.1 ++ "=" ++ addingPercentEncoding entry.2

theorem toList_item (entry : String × String) :
    (item entry).toList =
      (addingPercentEncoding entry.1).toList ++ '=' :: (addingPercentEncoding entry.2).toList := by
  unfold item
  rw [String.toList_append, String.toList_append, List.append_assoc]
  rfl

theorem comma_notMem_item (entry : String × String) : ',' ∉ (item entry).toList := by
  rw [toList_item]
  intro hmem
  rcases List.mem_append.mp hmem with hkey | hvalue
  · exact comma_notMem _ hkey
  · rcases List.mem_cons.mp hvalue with heq | hvalue
    · cases heq
    · exact comma_notMem _ hvalue

/-- An item is read with its key as it was written and its value as it was. -/
theorem decodeProperty_item (entry : String × String) :
    decodeProperty (item entry) = some (addingPercentEncoding entry.1, entry.2) := by
  unfold decodeProperty componentsSeparatedBy
  rw [toList_item, List.splitOn_append_cons_self_of_not_mem (equals_notMem _),
    List.splitOn_eq_singleton (equals_notMem _)]
  simp only [List.map_cons, List.map_nil, String.ofList_toList,
    removingPercentEncoding_addingPercentEncoding, Option.map_some]

theorem componentsSeparatedBy_intercalate {items : List String} (hne : items ≠ [])
    (hcomma : ∀ item ∈ items, ',' ∉ item.toList) :
    componentsSeparatedBy ',' (",".intercalate items) = items := by
  unfold componentsSeparatedBy
  rw [String.toList_intercalate]
  change (([','].intercalate (items.map String.toList)).splitOn ',').map String.ofList = items
  rw [List.splitOn_intercalate, List.map_map]
  · have hid : String.ofList ∘ String.toList = id := funext fun s => String.ofList_toList
    rw [hid, List.map_id]
  · intro text htext
    obtain ⟨item, hitem, rfl⟩ := List.mem_map.mp htext
    exact hcomma item hitem
  · rwa [ne_eq, List.map_eq_nil_iff]

end SentryCocoa.Baggage
