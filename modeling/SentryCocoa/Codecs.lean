import SentryCocoa.Foundation

/-! The two Foundation services that the serialization relies on, each with the
documented behaviour that the proofs use. -/
namespace SentryCocoa.Foundation

/-- Values that come back from JSON as they were: integers of at most 64 bits, but no
fractions, and dictionaries without a repeated key. -/
inductive Value.Stable : Value → Prop where
  | null : Stable .null
  | bool (value : Bool) : Stable (.number (.bool value))
  | integer {value : Int} (low : -2 ^ 63 ≤ value) (high : value < 2 ^ 64) :
      Stable (.number (.integer value))
  | string (value : String) : Stable (.string value)
  | array {values : List Value} (h : ∀ value ∈ values, Stable value) : Stable (.array values)
  | dictionary {entries : List (String × Value)} (keys : (entries.map Prod.fst).Nodup)
      (h : ∀ entry ∈ entries, Stable entry.2) : Stable (.dictionary entries)

def newline : UInt8 := 10

structure NSJSONSerialization where
  isValidJSONObject : Value → Bool
  /-- Absent when an error is reported. -/
  dataWithJSONObject : Value → Option NSData
  JSONObjectWithData : NSData → Option Value
  round_trip : ∀ {value data}, value.Stable → isValidJSONObject value = true →
    dataWithJSONObject value = some data → JSONObjectWithData data = some value
  newline_notMem : ∀ {value data}, dataWithJSONObject value = some data → newline ∉ data.bytes
  JSONObjectWithData_empty : JSONObjectWithData .empty = none
  /-- White space in front of a document is skipped. -/
  JSONObjectWithData_newline : ∀ {data data' : NSData}, data'.bytes = newline :: data.bytes →
    JSONObjectWithData data' = JSONObjectWithData data

structure NSDateFormatter where
  toIso8601String : NSDate → String
  fromIso8601String : String → Option NSDate
  fromIso8601String_toIso8601String : ∀ date, fromIso8601String (toIso8601String date) = some date

/-- A dictionary of stable values is a stable value. -/
theorem Value.Stable.ofDictionary {d : NSDictionary Value}
    (h : ∀ key value, d.objectForKey key = some value → value.Stable) :
    (Value.ofDictionary d).Stable := by
  refine .dictionary ?_ ?_
  · have hkeys := d.nodupKeys
    simpa [List.NodupKeys, List.keys, Function.comp_def] using hkeys
  · intro entry hentry
    obtain ⟨⟨key, value⟩, hmem, rfl⟩ := List.mem_map.mp hentry
    exact h key value (AList.mem_lookup_iff.mpr hmem)

end SentryCocoa.Foundation
