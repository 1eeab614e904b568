import Mathlib.Algebra.Group.Int.Defs
import Mathlib.Algebra.Ring.Nat
import Mathlib.Data.List.AList
import Mathlib.Data.Rat.Defs

/-! The Foundation values that the program stores, serializes and reads back.
Numbers keep the distinctions that the encoders make; dates count milliseconds,
which is the precision of the date formatters. -/
namespace SentryCocoa.Foundation

/-- Milliseconds since 1970. -/
structure NSDate where
  milliseconds : Int
  deriving DecidableEq, Repr

inductive NSNumber where
  | bool (value : Bool)
  | integer (value : Int)
  | double (value : ℚ)
  | nonFinite (sign : Int)
  deriving DecidableEq, Repr

/-- An object in a dictionary or an array. Strings, numbers, nulls, arrays and
dictionaries are what JSON can hold. -/
inductive Value where
  | null
  | number (value : NSNumber)
  | string (value : String)
  | date (value : NSDate)
  | data (bytes : List UInt8)
  | array (values : List Value)
  | dictionary (entries : List (String × Value))
  | other (className : String)

abbrev NSDictionary (α : Type) : Type := AList fun _ : String => α

variable {α β : Type}

def NSDictionary.objectForKey (d : NSDictionary α) (key : String) : Option α := d.lookup key

def NSDictionary.removeObjectForKey (d : NSDictionary α) (key : String) : NSDictionary α :=
  d.erase key

/-- `setValue:forKey:` removes the entry when the value is nil. -/
def NSDictionary.setValue (d : NSDictionary α) (value : Option α) (key : String) :
    NSDictionary α :=
  match value with
  | some a => d.insert key a
  | none => d.removeObjectForKey key

/-- An entry that is written only when there is a value for it. -/
def NSDictionary.insertIfPresent (d : NSDictionary α) (value : Option α) (key : String) :
    NSDictionary α :=
  match value with
  | some a => d.insert key a
  | none => d

/-- Entries of the other dictionary win. -/
def NSDictionary.addEntriesFromDictionary (d other : NSDictionary α) : NSDictionary α :=
  other ∪ d

def NSDictionary.count (d : NSDictionary α) : Nat := d.entries.length

/-- The same dictionary with another type of values. -/
def NSDictionary.map (f : α → β) (d : NSDictionary α) : NSDictionary β :=
  ⟨d.entries.map fun entry => ⟨entry.1, f entry.2⟩, by
    have hkeys := d.nodupKeys
    simpa [List.NodupKeys, List.keys, Function.comp_def] using hkeys⟩

def Value.ofDictionary (d : NSDictionary Value) : Value :=
  .dictionary (d.entries.map fun entry => (entry.1, entry.2))

@[simp] theorem NSDictionary.count_empty : NSDictionary.count (∅ : NSDictionary α) = 0 := rfl

theorem objectForKey_insert (d : NSDictionary α) (key key' : String) (value : α) :
    NSDictionary.objectForKey (d.insert key value) key' =
      if key' = key then some value else d.objectForKey key' := by
  unfold NSDictionary.objectForKey
  split
  · rename_i h
    rw [h, AList.lookup_insert]
  · rename_i h
    exact AList.lookup_insert_ne h

@[simp] theorem objectForKey_empty (key : String) :
    NSDictionary.objectForKey (∅ : NSDictionary α) key = none := rfl

theorem objectForKey_insertIfPresent (d : NSDictionary α) (value : Option α) (key key' : String) :
    (d.insertIfPresent value key).objectForKey key' =
      if key' = key then value.or (d.objectForKey key') else d.objectForKey key' := by
  cases value with
  | none => exact (ite_self _).symm
  | some a => exact objectForKey_insert d key key' a

theorem objectForKey_removeObjectForKey (d : NSDictionary α) (key key' : String) :
    (d.removeObjectForKey key).objectForKey key' =
      if key' = key then none else d.objectForKey key' := by
  unfold NSDictionary.removeObjectForKey NSDictionary.objectForKey
  split
  · rename_i h
    rw [h, AList.lookup_erase]
  · rename_i h
    exact AList.lookup_erase_ne h

theorem objectForKey_setValue (d : NSDictionary α) (value : Option α) (key key' : String) :
    (d.setValue value key).objectForKey key' =
      if key' = key then value else d.objectForKey key' := by
  cases value with
  | none => exact objectForKey_removeObjectForKey d key key'
  | some a => exact objectForKey_insert d key key' a

theorem objectForKey_addEntriesFromDictionary (d other : NSDictionary α) (key : String) :
    (d.addEntriesFromDictionary other).objectForKey key =
      (other.objectForKey key).or (d.objectForKey key) := by
  unfold NSDictionary.addEntriesFromDictionary NSDictionary.objectForKey
  by_cases h : key ∈ other
  · obtain ⟨value, hvalue⟩ := Option.isSome_iff_exists.mp (AList.lookup_isSome.mpr h)
    rw [AList.lookup_union_left h, hvalue, Option.some_or]
  · rw [AList.lookup_union_right h, AList.lookup_eq_none.mpr h, Option.none_or]

theorem NSDictionary.objectForKey_map {α β : Type} (f : α → β) (d : NSDictionary α)
    (key : String) : (d.map f).objectForKey key = (d.objectForKey key).map f := by
  obtain ⟨entries, hkeys⟩ := d
  change (entries.map fun entry => (⟨entry.1, f entry.2⟩ : Sigma fun _ : String => β)).dlookup key =
    (entries.dlookup key).map f
  clear hkeys
  induction entries with
  | nil => rfl
  | cons entry rest ih =>
    obtain ⟨k, v⟩ := entry
    by_cases h : key = k
    · subst h
      simp
    · have hmapped := List.dlookup_cons_ne (rest.map fun entry => ⟨entry.1, f entry.2⟩)
        (⟨k, f v⟩ : Sigma fun _ : String => β) h
      rw [List.dlookup_cons_ne rest ⟨k, v⟩ h, ← ih]
      exact hmapped

theorem Value.lookup_ofDictionary (d : NSDictionary Value) (key : String) :
    (d.entries.map fun entry => (entry.1, entry.2)).lookup key = d.objectForKey key := by
  obtain ⟨entries, hkeys⟩ := d
  change (entries.map fun entry => (entry.1, entry.2)).lookup key = entries.dlookup key
  clear hkeys
  induction entries with
  | nil => rfl
  | cons entry rest ih =>
    obtain ⟨k, v⟩ := entry
    by_cases hk : key = k
    · subst hk
      simp
    · have hbeq : (key == k) = false := beq_eq_false_iff_ne.mpr hk
      rw [List.map_cons, List.lookup_cons, hbeq, List.dlookup_cons_ne rest ⟨k, v⟩ hk]
      exact ih

/-- An `NSUInteger` is kept modulo the word size. -/
def wrap (n : Int) : Nat := (n % 2 ^ 64).toNat

theorem wrap_of_lt {n : Nat} (h : n < 2 ^ 64) : wrap n = n := by
  unfold wrap
  omega

/-- The signed reading of the 64 bits of a number; a fraction is cut off. -/
def NSNumber.integerValue : NSNumber → Int
  | .bool value => if value then 1 else 0
  | .integer value => Int.bmod value (2 ^ 64)
  | .double value => Int.bmod (Int.tdiv value.num value.den) (2 ^ 64)
  | .nonFinite _ => 0

def NSNumber.boolValue : NSNumber → Bool
  | .bool value => value
  | .integer value => value != 0
  | .double value => value != 0
  | .nonFinite _ => true

def NSNumber.unsignedIntegerValue (n : NSNumber) : Nat := wrap n.integerValue

theorem NSNumber.integerValue_of_lt {n : Nat} (h : n < 2 ^ 63) :
    (NSNumber.integer n).integerValue = n := by
  simp only [integerValue, Int.bmod_def]
  split <;> omega

theorem NSNumber.unsignedIntegerValue_of_lt {n : Nat} (h : n < 2 ^ 63) :
    (NSNumber.integer n).unsignedIntegerValue = n := by
  rw [unsignedIntegerValue, integerValue_of_lt h, wrap_of_lt (by omega)]

/-- No buffer is longer than half the address space. -/
structure NSData where
  bytes : List UInt8
  length_lt : bytes.length < 2 ^ 63
  deriving DecidableEq

def NSData.length (data : NSData) : Nat := data.bytes.length

def NSData.empty : NSData := ⟨[], by decide⟩

/-- Fails when there is no memory for the result. -/
def NSData.appendData (data other : NSData) : Option NSData :=
  if h : (data.bytes ++ other.bytes).length < 2 ^ 63 then some ⟨data.bytes ++ other.bytes, h⟩
  else none

/-- An empty range yields empty data; any other range must lie inside the buffer, or a range
exception is raised. -/
def NSData.subdataWithRange (data : NSData) (location length : Nat) : Option NSData :=
  if length = 0 then some .empty
  else if location + length ≤ data.length then
    some ⟨(data.bytes.drop location).take length, by
      have hlt := data.length_lt
      rw [List.length_take, List.length_drop]
      omega⟩
  else none

theorem NSData.appendData_bytes {data other result : NSData}
    (h : data.appendData other = some result) : result.bytes = data.bytes ++ other.bytes := by
  unfold appendData at h
  split at h
  · cases h
    rfl
  · cases h

/-- A range between a prefix and a suffix of the buffer. -/
theorem NSData.subdataWithRange_of_eq_append {data : NSData} {before body after : List UInt8}
    (h : data.bytes = before ++ body ++ after) :
    ∃ hlt, data.subdataWithRange before.length body.length = some ⟨body, hlt⟩ := by
  have hlength : data.length = before.length + body.length + after.length := by
    rw [length, h, List.length_append, List.length_append]
  have hlt : body.length < 2 ^ 63 := by
    have := data.length_lt
    change data.length < 2 ^ 63 at this
    omega
  refine ⟨hlt, ?_⟩
  unfold subdataWithRange
  split
  · rename_i hzero
    obtain rfl : body = [] := List.length_eq_zero_iff.mp hzero
    rfl
  · rw [if_pos (by omega)]
    congr 2
    rw [h, List.append_assoc, List.drop_left, List.take_left]

/-- `NSMutableArray`'s indexed assignment: replace an element, append one, or raise a range
exception. -/
def setObjectAtIndexedSubscript (array : List α) (object : α) (index : Nat) : Option (List α) :=
  if index < array.length then some (array.set index object)
  else if index = array.length then some (array ++ [object])
  else none

end SentryCocoa.Foundation
