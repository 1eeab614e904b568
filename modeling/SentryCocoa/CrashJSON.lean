import Mathlib.Algebra.Order.Ring.Rat
import SentryCocoa.Foundation

/-! What is left of a Foundation object that the crash JSON encoder wrote into a
crash report, once the report is read back. Entries of a dictionary have no
order, and equal numbers are one number: both keep the form that they had. -/
namespace SentryCocoa.CrashReports
open SentryCocoa.Foundation

/-- Entries with a key of their own are found where their value is kept. -/
theorem lookup_filterMap {α β : Type} (f : α → Option β) {entries : List (String × α)}
    (keys : (entries.map Prod.fst).Nodup) (key : String) :
    (entries.filterMap fun entry => (f entry.2).map fun b => (entry.1, b)).lookup key =
      (entries.lookup key).bind f := by
  induction entries with
  | nil => rfl
  | cons entry rest ih =>
    obtain ⟨k, a⟩ := entry
    obtain ⟨hk, hrest⟩ := List.nodup_cons.mp keys
    have ih := ih hrest
    rw [List.filterMap_cons, List.lookup_cons]
    by_cases h : key = k
    · subst h
      rw [beq_self_eq_true]
      cases hf : f a with
      | some b => simp [hf]
      | none =>
        have habsent : rest.lookup key = none := by
          rw [List.lookup_eq_none_iff]
          intro e he
          have hmem : e.1 ∈ rest.map Prod.fst := List.mem_map_of_mem he
          have hne : key ≠ e.1 := fun heq => hk (heq ▸ hmem)
          simpa using hne
        simp [hf, ih, habsent]
    · rw [beq_eq_false_iff_ne.mpr h]
      cases hf : f a with
      | some b => simp [ih, List.lookup_cons, beq_eq_false_iff_ne.mpr h]
      | none => simp [ih]

theorem nodup_filterMap {α β : Type} (f : α → Option β) {entries : List (String × α)}
    (keys : (entries.map Prod.fst).Nodup) :
    ((entries.filterMap fun entry => (f entry.2).map fun b => (entry.1, b)).map Prod.fst).Nodup := by
  refine keys.sublist ?_
  induction entries with
  | nil => exact .slnil
  | cons entry rest ih =>
    have ih := ih (List.nodup_cons.mp keys).2
    rw [List.filterMap_cons]
    cases hf : f entry.2 with
    | none => exact ih.cons _
    | some b => exact ih.cons_cons _

/-- The texts that stand for what JSON has no form for, and fractions with six digits. -/
structure Printing where
  double : ℚ → ℚ
  dateText : NSDate → String
  dataText : List UInt8 → String

namespace Printing

/-- Integers are written with 64 bits; NaN is written as null. -/
def number (printing : Printing) : NSNumber → Option NSNumber
  | .bool value => some (.bool value)
  | .integer value => some (.integer (Int.bmod value (2 ^ 64)))
  | .double value => some (.double (printing.double value))
  | .nonFinite _ => none

variable (printing : Printing)

mutual

/-- The reader of reports leaves out nulls. Objects of another class are not encoded. -/
def image : Value → Option Value
  | .null => none
  | .number n => (printing.number n).map .number
  | .string s => some (.string s)
  | .date date => some (.string (printing.dateText date))
  | .data bytes => some (.string (printing.dataText bytes))
  | .array values => some (.array (imageValues values))
  | .dictionary entries => some (.dictionary (imageEntries entries))
  | .other _ => none

def imageValues : List Value → List Value
  | [] => []
  | value :: values => (image value).toList ++ imageValues values

def imageEntries : List (String × Value) → List (String × Value)
  | [] => []
  | (key, value) :: entries =>
    ((image value).map fun read => (key, read)).toList ++ imageEntries entries

end

/-- Values that are read back as they were. -/
inductive Plain : Value → Prop where
  | number {n : NSNumber} (h : printing.number n = some n) : Plain (.number n)
  | string (s : String) : Plain (.string s)
  | array {values : List Value} (h : ∀ value ∈ values, Plain value) : Plain (.array values)
  | dictionary {entries : List (String × Value)} (h : ∀ entry ∈ entries, Plain entry.2) :
      Plain (.dictionary entries)

variable {printing}

theorem imageValues_of_forall {values : List Value}
    (h : ∀ value ∈ values, printing.image value = some value) :
    printing.imageValues values = values := by
  induction values with
  | nil => rfl
  | cons value values ih =>
    rw [imageValues, h value List.mem_cons_self, ih fun v hv => h v (List.mem_cons_of_mem _ hv)]
    rfl

theorem imageEntries_of_forall {entries : List (String × Value)}
    (h : ∀ entry ∈ entries, printing.image entry.2 = some entry.2) :
    printing.imageEntries entries = entries := by
  induction entries with
  | nil => rfl
  | cons entry entries ih =>
    obtain ⟨key, value⟩ := entry
    rw [imageEntries, h (key, value) List.mem_cons_self,
      ih fun e he => h e (List.mem_cons_of_mem _ he)]
    rfl

theorem Plain.image_eq {value : Value} (h : printing.Plain value) :
    printing.image value = some value := by
  induction h with
  | number h => rw [image, h, Option.map_some]
  | string s => rw [image]
  | array h ih => rw [image, imageValues_of_forall ih]
  | dictionary h ih => rw [image, imageEntries_of_forall ih]

theorem length_imageValues_le (values : List Value) :
    (printing.imageValues values).length ≤ values.length := by
  induction values with
  | nil => exact Nat.le_refl _
  | cons value values ih =>
    rw [imageValues]
    cases printing.image value <;> simp <;> omega

theorem length_imageEntries_le (entries : List (String × Value)) :
    (printing.imageEntries entries).length ≤ entries.length := by
  induction entries with
  | nil => exact Nat.le_refl _
  | cons entry entries ih =>
    obtain ⟨key, value⟩ := entry
    rw [imageEntries]
    cases printing.image value <;> simp <;> omega

/-- Where nothing is lost, the first element was not lost either. -/
theorem imageValues_cons_eq {value : Value} {values : List Value}
    (h : printing.imageValues (value :: values) = value :: values) :
    printing.image value = some value ∧ printing.imageValues values = values := by
  rw [imageValues] at h
  cases hvalue : printing.image value with
  | none =>
    rw [hvalue] at h
    have hle : (printing.imageValues values).length ≤ values.length := length_imageValues_le values
    have hlength := congrArg List.length h
    simp at hlength
    omega
  | some read =>
    rw [hvalue] at h
    obtain ⟨rfl, hrest⟩ := List.cons.inj h
    exact ⟨rfl, hrest⟩

theorem imageEntries_cons_eq {key : String} {value : Value} {entries : List (String × Value)}
    (h : printing.imageEntries ((key, value) :: entries) = (key, value) :: entries) :
    printing.image value = some value ∧ printing.imageEntries entries = entries := by
  rw [imageEntries] at h
  cases hvalue : printing.image value with
  | none =>
    rw [hvalue] at h
    have hle : (printing.imageEntries entries).length ≤ entries.length :=
      length_imageEntries_le entries
    have hlength := congrArg List.length h
    simp at hlength
    omega
  | some read =>
    rw [hvalue] at h
    obtain ⟨hentry, hrest⟩ := List.cons.inj h
    cases hentry
    exact ⟨rfl, hrest⟩

mutual

theorem plain_of_image_eq : ∀ {value : Value}, printing.image value = some value →
    printing.Plain value
  | .null, h => by simp [image] at h
  | .number n, h => by
    rw [image, Option.map_eq_some_iff] at h
    obtain ⟨read, hread, heq⟩ := h
    cases heq
    exact .number hread
  | .string s, _ => .string s
  | .date _, h => by simp [image] at h
  | .data _, h => by simp [image] at h
  | .array values, h => by
    rw [image] at h
    exact .array (forall_plain_of_imageValues_eq (Value.array.inj (Option.some.inj h)))
  | .dictionary entries, h => by
    rw [image] at h
    exact .dictionary (forall_plain_of_imageEntries_eq (Value.dictionary.inj (Option.some.inj h)))
  | .other _, h => by simp [image] at h

theorem forall_plain_of_imageValues_eq : ∀ {values : List Value},
    printing.imageValues values = values → ∀ value ∈ values, printing.Plain value
  | [], _ => fun _ hmem => nomatch hmem
  | value :: values, h => by
    obtain ⟨hvalue, hrest⟩ := imageValues_cons_eq h
    intro v hmem
    cases hmem with
    | head => exact plain_of_image_eq hvalue
    | tail _ hmem => exact forall_plain_of_imageValues_eq hrest v hmem

theorem forall_plain_of_imageEntries_eq : ∀ {entries : List (String × Value)},
    printing.imageEntries entries = entries → ∀ entry ∈ entries, printing.Plain entry.2
  | [], _ => fun _ hmem => nomatch hmem
  | (key, value) :: entries, h => by
    obtain ⟨hvalue, hrest⟩ := imageEntries_cons_eq h
    intro e hmem
    cases hmem with
    | head => exact plain_of_image_eq hvalue
    | tail _ hmem => exact forall_plain_of_imageEntries_eq hrest e hmem

end

theorem image_eq_self_iff {value : Value} :
    printing.image value = some value ↔ printing.Plain value :=
  ⟨plain_of_image_eq, Plain.image_eq⟩

theorem imageEntries_eq_filterMap (entries : List (String × Value)) :
    printing.imageEntries entries = entries.filterMap fun entry =>
      (printing.image entry.2).map fun read => (entry.1, read) := by
  induction entries with
  | nil => rfl
  | cons entry rest ih =>
    obtain ⟨key, value⟩ := entry
    rw [imageEntries, List.filterMap_cons, ih]
    cases printing.image value <;> rfl

/-- The entries that a dictionary is read back with. -/
def readEntries (printing : Printing) (d : NSDictionary Value) : List (String × Value) :=
  printing.imageEntries (d.entries.map fun entry => (entry.1, entry.2))

theorem image_ofDictionary (d : NSDictionary Value) :
    printing.image (.ofDictionary d) = some (.dictionary (printing.readEntries d)) := by
  rw [Value.ofDictionary, image, readEntries]

/-- Every entry of a dictionary is read back on its own. -/
theorem lookup_readEntries (d : NSDictionary Value) (key : String) :
    (printing.readEntries d).lookup key = (d.objectForKey key).bind printing.image := by
  have hkeys : ((d.entries.map fun entry => (entry.1, entry.2)).map Prod.fst).Nodup := by
    have hkeys := d.nodupKeys
    simpa [List.NodupKeys, List.keys, Function.comp_def] using hkeys
  rw [readEntries, imageEntries_eq_filterMap, lookup_filterMap printing.image hkeys,
    Value.lookup_ofDictionary]

theorem plain_ofDictionary_iff {d : NSDictionary Value} :
    printing.Plain (.ofDictionary d) ↔
      Value.dictionary (printing.readEntries d) = .ofDictionary d := by
  rw [← image_eq_self_iff, image_ofDictionary, Option.some_inj]

end Printing

/-- The crash JSON encoder, with the way of a text into a report and back out of it. -/
structure CrashJSON extends Printing where
  /-- Absent when the value cannot be encoded. -/
  encode : Value → Option String
  /-- Absent when the report writer cannot add the text as an element. -/
  element : String → Option Value
  element_encode : ∀ {value json read}, encode value = some json → element json = some read →
    toPrinting.image value = some read

def CrashJSON.Accepts (codec : CrashJSON) (value : Value) : Prop :=
  ∃ json, codec.encode value = some json ∧ (codec.element json).isSome

theorem CrashJSON.Accepts.element_eq {codec : CrashJSON} {value : Value} {json : String}
    (accepts : codec.Accepts value) (encoded : codec.encode value = some json) :
    codec.element json = codec.image value := by
  obtain ⟨json', hjson, helement⟩ := accepts
  cases encoded.symm.trans hjson
  obtain ⟨read, hread⟩ := Option.isSome_iff_exists.mp helement
  rw [hread, codec.element_encode encoded hread]

end SentryCocoa.CrashReports
