import SentryCocoa.ScopeObjects

/-! Dictionaries and arrays of any objects are sanitized before they are serialized. Keys become
strings, those of the SDK are left out, dates and objects that JSON does not know become text;
strings and numbers stay. -/
namespace SentryCocoa.Sanitize
open SentryCocoa.Foundation
open Scope (isSentryKey)

/-- An object in a dictionary or an array. The entries of a dictionary are in the order in which
they are enumerated, and the keys are objects too. -/
inductive Object where
  | null
  | number (value : NSNumber)
  | string (value : String)
  | date (value : NSDate)
  | array (values : List Object)
  | dictionary (entries : List (Object × Object))
  | data (bytes : List UInt8)
  | other (className : String)

/-- How dates and other objects become text. -/
structure Texts where
  toIso8601String : NSDate → String
  description : Object → String

/-- An entry for the key is replaced. -/
def setValue (dict : List (String × Object)) (value : Object) (key : String) :
    List (String × Object) :=
  if key ∈ dict.map Prod.fst then
    dict.map fun entry => if entry.1 = key then (key, value) else entry
  else dict ++ [(key, value)]

/-- The entries of a dictionary with strings as keys. -/
def ofEntries (dict : List (String × Object)) : List (Object × Object) :=
  dict.map fun entry => (.string entry.1, entry.2)

section

variable (texts : Texts)

def stringKey : Object → String
  | .string key => key
  | rawKey => texts.description rawKey

mutual

/-- What a value of a dictionary or an array is replaced by. -/
def sanitizeObject : Object → Object
  | .string value => .string value
  | .number value => .number value
  | .dictionary entries => .dictionary (ofEntries (sanitizeEntries [] entries))
  | .array values => .array (sanitizeArray values)
  | .date value => .string (texts.toIso8601String value)
  | .null => .string (texts.description .null)
  | .data bytes => .string (texts.description (.data bytes))
  | .other className => .string (texts.description (.other className))

/-- The loop of `sentry_sanitize` over the keys. -/
def sanitizeEntries (dict : List (String × Object)) :
    List (Object × Object) → List (String × Object)
  | [] => dict
  | (rawKey, rawValue) :: rest =>
    if isSentryKey (stringKey texts rawKey) then sanitizeEntries dict rest
    else sanitizeEntries (setValue dict (sanitizeObject rawValue) (stringKey texts rawKey)) rest

def sanitizeArray : List Object → List Object
  | [] => []
  | rawValue :: rest => sanitizeObject rawValue :: sanitizeArray rest

end

def sentry_sanitize (dictionary : Option (List (Object × Object))) :
    Option (List (Object × Object)) :=
  dictionary.map fun entries => ofEntries (sanitizeEntries texts [] entries)

end

/-! ## Serialization -/

def isFinite : NSNumber → Bool
  | .nonFinite _ => false
  | _ => true

def isString : Object → Bool
  | .string _ => true
  | _ => false

mutual

/-- The objects that Foundation takes: strings, finite numbers, nulls, arrays, and dictionaries
whose keys are strings. -/
def isValidObject : Object → Bool
  | .null => true
  | .string _ => true
  | .number value => isFinite value
  | .array values => areValidObjects values
  | .dictionary entries => areValidEntries entries
  | .date _ => false
  | .data _ => false
  | .other _ => false

def areValidObjects : List Object → Bool
  | [] => true
  | value :: rest => isValidObject value && areValidObjects rest

def areValidEntries : List (Object × Object) → Bool
  | [] => true
  | (key, value) :: rest => isString key && isValidObject value && areValidEntries rest

end

/-- The top object is an array or a dictionary. -/
def isValidJSONObject : Object → Bool
  | .array values => isValidObject (.array values)
  | .dictionary entries => isValidObject (.dictionary entries)
  | _ => false

/-- The serializer of Foundation writes what is valid. -/
structure NSJSONSerialization where
  dataWithJSONObject : Object → Option NSData
  isSome_of_valid : ∀ object, isValidJSONObject object = true → (dataWithJSONObject object).isSome

def dataWithJSONObject (json : NSJSONSerialization) (jsonObject : Object) : Option NSData :=
  if isValidJSONObject jsonObject then json.dataWithJSONObject jsonObject else none

theorem dataWithJSONObject_isSome (json : NSJSONSerialization) (jsonObject : Object) :
    (dataWithJSONObject json jsonObject).isSome = isValidJSONObject jsonObject := by
  unfold dataWithJSONObject
  split
  · next hvalid => rw [json.isSome_of_valid jsonObject hvalid, hvalid]
  · next hinvalid =>
    rw [Bool.not_eq_true] at hinvalid
    rw [hinvalid]
    rfl

/-- What the serializer is for: at every depth strings, finite numbers, nulls, arrays, and
dictionaries with strings that are not for the SDK as keys. -/
inductive Serializable : Object → Prop
  | null : Serializable .null
  | string (value : String) : Serializable (.string value)
  | number {value : NSNumber} (hfinite : isFinite value = true) : Serializable (.number value)
  | array {values : List Object} (hvalues : ∀ value ∈ values, Serializable value) :
    Serializable (.array values)
  | dictionary {entries : List (Object × Object)}
    (hkeys : ∀ entry ∈ entries, ∃ key, entry.1 = .string key ∧ isSentryKey key = false)
    (hvalues : ∀ entry ∈ entries, Serializable entry.2) : Serializable (.dictionary entries)

theorem areValidObjects_iff {values : List Object} :
    areValidObjects values = true ↔ ∀ value ∈ values, isValidObject value = true := by
  induction values with
  | nil => simp [areValidObjects]
  | cons value rest ih => simp [areValidObjects, ih]

theorem areValidEntries_iff {entries : List (Object × Object)} :
    areValidEntries entries = true ↔
      ∀ entry ∈ entries, isString entry.1 = true ∧ isValidObject entry.2 = true := by
  induction entries with
  | nil => simp [areValidEntries]
  | cons entry rest ih => simp [areValidEntries, ih]

theorem Serializable.isValidObject {object : Object} (h : Serializable object) :
    isValidObject object = true := by
  induction h with
  | null => rw [Sanitize.isValidObject]
  | string value => rw [Sanitize.isValidObject]
  | number hfinite => rw [Sanitize.isValidObject, hfinite]
  | array _ ih => rw [Sanitize.isValidObject, areValidObjects_iff.2 ih]
  | dictionary hkeys _ ih =>
    rw [Sanitize.isValidObject, areValidEntries_iff.2 fun entry hentry => ⟨?_, ih entry hentry⟩]
    obtain ⟨key, hkey, -⟩ := hkeys entry hentry
    rw [hkey, isString]

/-! ## Clean objects -/

/-- What sanitizing leaves alone: like `Serializable`, with distinct keys and any numbers. -/
inductive Clean : Object → Prop
  | string (value : String) : Clean (.string value)
  | number (value : NSNumber) : Clean (.number value)
  | array {values : List Object} (hvalues : ∀ value ∈ values, Clean value) : Clean (.array values)
  | dictionary {entries : List (Object × Object)} (hdistinct : (entries.map Prod.fst).Nodup)
    (hkeys : ∀ entry ∈ entries, ∃ key, entry.1 = .string key ∧ isSentryKey key = false)
    (hvalues : ∀ entry ∈ entries, Clean entry.2) : Clean (.dictionary entries)

/-- A dictionary while it is filled. -/
structure CleanEntries (dict : List (String × Object)) : Prop where
  distinct : (dict.map Prod.fst).Nodup
  keys : ∀ entry ∈ dict, isSentryKey entry.1 = false
  values : ∀ entry ∈ dict, Clean entry.2

theorem CleanEntries.clean {dict : List (String × Object)} (h : CleanEntries dict) :
    Clean (.dictionary (ofEntries dict)) := by
  refine .dictionary ?_ (fun entry hentry => ?_) fun entry hentry => ?_
  · have hstrings : Function.Injective Object.string := fun _ _ heq => Object.string.inj heq
    have hdistinct := h.distinct.map hstrings
    rw [List.map_map] at hdistinct
    rw [ofEntries, List.map_map]
    exact hdistinct
  · obtain ⟨added, hadded, rfl⟩ := List.mem_map.1 hentry
    exact ⟨added.1, rfl, h.keys added hadded⟩
  · obtain ⟨added, hadded, rfl⟩ := List.mem_map.1 hentry
    exact h.values added hadded

/-- Clean entries are those of a dictionary with strings as keys. -/
theorem exists_cleanEntries {entries : List (Object × Object)}
    (h : Clean (.dictionary entries)) : ∃ dict, CleanEntries dict ∧ entries = ofEntries dict := by
  cases h with
  | dictionary hdistinct hkeys hvalues =>
    induction entries with
    | nil => exact ⟨[], ⟨List.nodup_nil, fun _ h => absurd h List.not_mem_nil,
        fun _ h => absurd h List.not_mem_nil⟩, rfl⟩
    | cons entry rest ih =>
      rw [List.map_cons, List.nodup_cons] at hdistinct
      rw [List.forall_mem_cons] at hkeys hvalues
      obtain ⟨dict, hdict, rfl⟩ := ih hdistinct.2 hkeys.2 hvalues.2
      obtain ⟨⟨key, hkey, hsdk⟩, -⟩ := hkeys
      obtain ⟨rawKey, value⟩ := entry
      cases hkey
      refine ⟨(key, value) :: dict, ⟨?_, ?_, ?_⟩, rfl⟩
      · rw [List.map_cons, List.nodup_cons]
        refine ⟨fun hmem => hdistinct.1 ?_, hdict.distinct⟩
        obtain ⟨added, hadded, rfl⟩ := List.mem_map.1 hmem
        have hentry : (Object.string added.1, added.2) ∈ ofEntries dict :=
          List.mem_map_of_mem hadded
        exact List.mem_map.2 ⟨_, hentry, rfl⟩
      · exact List.forall_mem_cons.2 ⟨hsdk, hdict.keys⟩
      · exact List.forall_mem_cons.2 ⟨hvalues.1, hdict.values⟩

theorem cleanEntries_nil : CleanEntries [] where
  distinct := List.nodup_nil
  keys _ h := absurd h List.not_mem_nil
  values _ h := absurd h List.not_mem_nil

theorem map_fst_setValue (dict : List (String × Object)) (value : Object) (key : String) :
    (setValue dict value key).map Prod.fst =
      if key ∈ dict.map Prod.fst then dict.map Prod.fst else dict.map Prod.fst ++ [key] := by
  unfold setValue
  split
  · rw [List.map_map]
    refine List.map_congr_left fun entry _ => ?_
    by_cases hkey : entry.1 = key
    · simp [hkey]
    · simp [hkey]
  · rw [List.map_append]
    rfl

theorem mem_setValue {dict : List (String × Object)} {value : Object} {key : String}
    {entry : String × Object} :
    entry ∈ setValue dict value key ↔ entry = (key, value) ∨ entry ∈ dict ∧ entry.1 ≠ key := by
  unfold setValue
  split
  · next hmem =>
    obtain ⟨old, hold, hkey⟩ := List.mem_map.1 hmem
    rw [List.mem_map]
    constructor
    · rintro ⟨found, hfound, rfl⟩
      split
      · exact .inl rfl
      · next hne => exact .inr ⟨hfound, hne⟩
    · rintro (rfl | ⟨hentry, hne⟩)
      · exact ⟨old, hold, if_pos hkey⟩
      · exact ⟨entry, hentry, if_neg hne⟩
  · next hmem =>
    rw [List.mem_append, List.mem_singleton, or_comm]
    refine or_congr_right ⟨fun h => ⟨h, fun heq => hmem ?_⟩, And.left⟩
    exact heq ▸ List.mem_map_of_mem h

theorem CleanEntries.setValue {dict : List (String × Object)} (h : CleanEntries dict)
    {value : Object} {key : String} (hkey : isSentryKey key = false) (hvalue : Clean value) :
    CleanEntries (setValue dict value key) where
  distinct := by
    rw [map_fst_setValue]
    split
    · exact h.distinct
    · next hmem =>
      rw [List.nodup_append_comm, List.singleton_append, List.nodup_cons]
      exact ⟨hmem, h.distinct⟩
  keys entry hentry := by
    rcases mem_setValue.1 hentry with rfl | ⟨hold, -⟩
    · exact hkey
    · exact h.keys entry hold
  values entry hentry := by
    rcases mem_setValue.1 hentry with rfl | ⟨hold, -⟩
    · exact hvalue
    · exact h.values entry hold

section

variable (texts : Texts)

mutual

theorem clean_sanitizeObject : (object : Object) → Clean (sanitizeObject texts object)
  | .string value => by
    rw [sanitizeObject]
    exact .string value
  | .number value => by
    rw [sanitizeObject]
    exact .number value
  | .dictionary entries => by
    rw [sanitizeObject]
    exact (clean_sanitizeEntries entries cleanEntries_nil).clean
  | .array values => by
    rw [sanitizeObject]
    exact .array (clean_sanitizeArray values)
  | .date value => by
    rw [sanitizeObject]
    exact .string _
  | .null => by
    rw [sanitizeObject]
    exact .string _
  | .data bytes => by
    rw [sanitizeObject]
    exact .string _
  | .other className => by
    rw [sanitizeObject]
    exact .string _

theorem clean_sanitizeEntries {dict : List (String × Object)} :
    (entries : List (Object × Object)) → CleanEntries dict →
      CleanEntries (sanitizeEntries texts dict entries)
  | [], h => by
    rw [sanitizeEntries]
    exact h
  | (rawKey, rawValue) :: rest, h => by
    rw [sanitizeEntries]
    split
    · exact clean_sanitizeEntries rest h
    · next hkey =>
      exact clean_sanitizeEntries rest
        (h.setValue ((Bool.not_eq_true _).mp hkey) (clean_sanitizeObject rawValue))

theorem clean_sanitizeArray : (values : List Object) →
    ∀ value ∈ sanitizeArray texts values, Clean value
  | [] => by
    rw [sanitizeArray]
    exact fun _ h => absurd h List.not_mem_nil
  | rawValue :: rest => by
    rw [sanitizeArray, List.forall_mem_cons]
    exact ⟨clean_sanitizeObject rawValue, clean_sanitizeArray rest⟩

end

theorem sanitizeArray_eq_map (values : List Object) :
    sanitizeArray texts values = values.map (sanitizeObject texts) := by
  induction values with
  | nil => rfl
  | cons value rest ih => rw [sanitizeArray, ih, List.map_cons]

/-- Entries with new keys are added one after the other. -/
theorem sanitizeEntries_ofEntries (dict added : List (String × Object))
    (hdistinct : ((dict ++ added).map Prod.fst).Nodup) :
    sanitizeEntries texts dict (ofEntries added) =
      dict ++ (added.filter fun entry => !isSentryKey entry.1).map fun entry =>
        (entry.1, sanitizeObject texts entry.2) := by
  induction added generalizing dict with
  | nil => exact (List.append_nil dict).symm
  | cons entry rest ih =>
    obtain ⟨key, value⟩ := entry
    rw [ofEntries, List.map_cons, sanitizeEntries, stringKey]
    have hmem : key ∉ dict.map Prod.fst := by
      rw [List.map_append, List.map_cons, List.nodup_middle, List.nodup_cons] at hdistinct
      exact fun h => hdistinct.1 (List.mem_append_left _ h)
    split
    · next hkey =>
      have hrest : ((dict ++ rest).map Prod.fst).Nodup := by
        rw [List.map_append, List.map_cons, List.nodup_middle, List.nodup_cons] at hdistinct
        rw [List.map_append]
        exact hdistinct.2
      rw [List.filter_cons_of_neg (by simpa using hkey)]
      exact ih dict hrest
    · next hkey =>
      rw [setValue, if_neg hmem, List.filter_cons_of_pos (by simpa using hkey), List.map_cons]
      have hrest := ih (dict ++ [(key, sanitizeObject texts value)]) (by
        rw [List.append_assoc]
        simpa using hdistinct)
      rw [List.append_assoc] at hrest
      exact hrest

theorem Clean.sanitizeObject {object : Object} (h : Clean object) :
    sanitizeObject texts object = object := by
  induction h with
  | string value => rw [Sanitize.sanitizeObject]
  | number value => rw [Sanitize.sanitizeObject]
  | array _ ih =>
    rw [Sanitize.sanitizeObject, sanitizeArray_eq_map, List.map_congr_left ih, List.map_id']
  | dictionary hdistinct hkeys hvalues ih =>
    obtain ⟨dict, hdict, rfl⟩ := exists_cleanEntries (.dictionary hdistinct hkeys hvalues)
    have hkept : (dict.filter fun entry => !isSentryKey entry.1) = dict :=
      List.filter_eq_self.2 fun entry hentry => by rw [hdict.keys entry hentry]; rfl
    have hsame : ∀ entry ∈ dict, (entry.1, Sanitize.sanitizeObject texts entry.2) = entry :=
      fun entry hentry => Prod.ext rfl (ih _ (List.mem_map_of_mem hentry))
    rw [Sanitize.sanitizeObject, sanitizeEntries_ofEntries texts [] dict hdict.distinct,
      List.nil_append, hkept, List.map_congr_left hsame, List.map_id']

/-! ## Numbers -/

mutual

/-- No number that is kept is infinite or not a number. A value is not kept if its key is for the
SDK or a later key becomes the same string. -/
def KeepsFinite : Object → Prop
  | .number value => isFinite value = true
  | .array values => KeepFinite values
  | .dictionary entries => EntriesKeepFinite entries
  | .null => True
  | .string _ => True
  | .date _ => True
  | .data _ => True
  | .other _ => True

def KeepFinite : List Object → Prop
  | [] => True
  | value :: rest => KeepsFinite value ∧ KeepFinite rest

def EntriesKeepFinite : List (Object × Object) → Prop
  | [] => True
  | (rawKey, rawValue) :: rest =>
    (isSentryKey (stringKey texts rawKey) = true ∨
      stringKey texts rawKey ∈ rest.map (fun entry => stringKey texts entry.1) ∨
      KeepsFinite rawValue) ∧ EntriesKeepFinite rest

end

/-- The values of a dictionary that is being filled, except those that will be replaced. -/
theorem forall_mem_setValue {P : Object → Prop} {dict : List (String × Object)} {value : Object}
    {key : String} {replaced : List String} :
    (∀ entry ∈ setValue dict value key, entry.1 ∈ replaced ∨ P entry.2) ↔
      (key ∈ replaced ∨ P value) ∧
        ∀ entry ∈ dict, (entry.1 = key ∨ entry.1 ∈ replaced) ∨ P entry.2 := by
  simp only [mem_setValue]
  constructor
  · intro h
    refine ⟨h _ (.inl rfl), fun entry hentry => ?_⟩
    by_cases hkey : entry.1 = key
    · exact .inl (.inl hkey)
    · exact (h entry (.inr ⟨hentry, hkey⟩)).imp_left .inr
  · rintro ⟨hvalue, hdict⟩ entry (rfl | ⟨hentry, hkey⟩)
    · exact hvalue
    · rcases hdict entry hentry with (heq | hreplaced) | hP
      · exact absurd heq hkey
      · exact .inl hreplaced
      · exact .inr hP

theorem serializable_ofEntries_iff {dict : List (String × Object)} (h : CleanEntries dict) :
    Serializable (.dictionary (ofEntries dict)) ↔ ∀ entry ∈ dict, Serializable entry.2 := by
  constructor
  · intro hserializable entry hentry
    cases hserializable with
    | dictionary _ hvalues => exact hvalues _ (List.mem_map_of_mem hentry)
  · intro hvalues
    refine .dictionary (fun entry hentry => ?_) fun entry hentry => ?_
    · obtain ⟨added, hadded, rfl⟩ := List.mem_map.1 hentry
      exact ⟨added.1, rfl, h.keys added hadded⟩
    · obtain ⟨added, hadded, rfl⟩ := List.mem_map.1 hentry
      exact hvalues added hadded

mutual

theorem serializable_sanitizeObject_iff : (object : Object) →
    (Serializable (sanitizeObject texts object) ↔ KeepsFinite texts object)
  | .string value => by
    rw [sanitizeObject, KeepsFinite]
    exact iff_of_true (.string value) trivial
  | .number value => by
    rw [sanitizeObject, KeepsFinite]
    exact ⟨fun h => by cases h; assumption, .number⟩
  | .dictionary entries => by
    rw [sanitizeObject, KeepsFinite,
      serializable_ofEntries_iff (clean_sanitizeEntries texts entries cleanEntries_nil),
      serializable_sanitizeEntries_iff entries cleanEntries_nil]
    exact and_iff_right fun _ h => absurd h List.not_mem_nil
  | .array values => by
    rw [sanitizeObject, KeepsFinite, ← serializable_sanitizeArray_iff values]
    exact ⟨fun h => by cases h; assumption, .array⟩
  | .date value => by
    rw [sanitizeObject, KeepsFinite]
    exact iff_of_true (.string _) trivial
  | .null => by
    rw [sanitizeObject, KeepsFinite]
    exact iff_of_true (.string _) trivial
  | .data bytes => by
    rw [sanitizeObject, KeepsFinite]
    exact iff_of_true (.string _) trivial
  | .other className => by
    rw [sanitizeObject, KeepsFinite]
    exact iff_of_true (.string _) trivial

theorem serializable_sanitizeEntries_iff {dict : List (String × Object)} :
    (entries : List (Object × Object)) → CleanEntries dict →
      ((∀ entry ∈ sanitizeEntries texts dict entries, Serializable entry.2) ↔
        (∀ entry ∈ dict, entry.1 ∈ entries.map (fun entry => stringKey texts entry.1) ∨
          Serializable entry.2) ∧ EntriesKeepFinite texts entries)
  | [], h => by
    rw [sanitizeEntries, EntriesKeepFinite]
    simp
  | (rawKey, rawValue) :: rest, h => by
    rw [sanitizeEntries, EntriesKeepFinite, List.map_cons]
    split
    · next hkey =>
      have hdropped : isSentryKey (stringKey texts rawKey) = true ∨
          stringKey texts rawKey ∈ rest.map (fun entry => stringKey texts entry.1) ∨
          KeepsFinite texts rawValue := .inl hkey
      rw [serializable_sanitizeEntries_iff rest h, and_iff_right hdropped]
      refine and_congr_left fun _ => forall₂_congr fun entry hentry => or_congr_left ?_
      have hne : entry.1 ≠ stringKey texts rawKey := fun heq => by
        rw [← heq, h.keys entry hentry] at hkey
        cases hkey
      rw [List.mem_cons, or_iff_right hne]
    · next hkey =>
      have hclean := h.setValue ((Bool.not_eq_true _).mp hkey) (clean_sanitizeObject texts rawValue)
      rw [serializable_sanitizeEntries_iff rest hclean, forall_mem_setValue,
        serializable_sanitizeObject_iff rawValue, or_iff_right hkey, and_assoc, and_left_comm]
      simp only [List.mem_cons]

theorem serializable_sanitizeArray_iff : (values : List Object) →
    ((∀ value ∈ sanitizeArray texts values, Serializable value) ↔ KeepFinite texts values)
  | [] => by
    rw [sanitizeArray, KeepFinite]
    exact iff_of_true (fun _ h => absurd h List.not_mem_nil) trivial
  | rawValue :: rest => by
    rw [sanitizeArray, KeepFinite, List.forall_mem_cons, serializable_sanitizeObject_iff rawValue,
      serializable_sanitizeArray_iff rest]

end

end

/-! ## Containers -/

theorem Clean.serializable {object : Object} (h : Clean object)
    (hvalid : isValidObject object = true) : Serializable object := by
  induction h with
  | string value => exact .string value
  | number value =>
    rw [isValidObject] at hvalid
    exact .number hvalid
  | array _ ih =>
    rw [isValidObject, areValidObjects_iff] at hvalid
    exact .array fun value hvalue => ih value hvalue (hvalid value hvalue)
  | dictionary _ hkeys _ ih =>
    rw [isValidObject, areValidEntries_iff] at hvalid
    exact .dictionary hkeys fun entry hentry => ih entry hentry (hvalid entry hentry).2

/-- The same object, with the entries of its dictionaries in another order. -/
inductive Reordered : Object → Object → Prop
  | refl (object : Object) : Reordered object object
  | trans {first second third : Object} (h : Reordered first second)
    (h' : Reordered second third) : Reordered first third
  | entries {entries entries' : List (Object × Object)} (h : entries.Perm entries') :
    Reordered (.dictionary entries) (.dictionary entries')
  | value {value value' : Object} (before : List (Object × Object)) (key : Object)
    (after : List (Object × Object)) (h : Reordered value value') :
    Reordered (.dictionary (before ++ (key, value) :: after))
      (.dictionary (before ++ (key, value') :: after))
  | element {value value' : Object} (before after : List Object) (h : Reordered value value') :
    Reordered (.array (before ++ value :: after)) (.array (before ++ value' :: after))

theorem Clean.reordered {object again : Object} (h : Reordered object again)
    (hclean : Clean object) : Clean again := by
  induction h with
  | refl object => exact hclean
  | trans _ _ ih ih' => exact ih' (ih hclean)
  | entries hperm =>
    cases hclean with
    | dictionary hdistinct hkeys hvalues =>
      exact .dictionary ((hperm.map Prod.fst).nodup hdistinct)
        (fun entry hentry => hkeys entry (hperm.mem_iff.2 hentry))
        fun entry hentry => hvalues entry (hperm.mem_iff.2 hentry)
  | value before key after _ ih =>
    cases hclean with
    | dictionary hdistinct hkeys hvalues =>
      rw [List.forall_mem_append, List.forall_mem_cons] at hkeys hvalues
      refine .dictionary ?_ ?_ ?_
      · rw [List.map_append, List.map_cons] at hdistinct ⊢
        exact hdistinct
      · rw [List.forall_mem_append, List.forall_mem_cons]
        exact hkeys
      · rw [List.forall_mem_append, List.forall_mem_cons]
        exact ⟨hvalues.1, ih hvalues.2.1, hvalues.2.2⟩
  | element before after _ ih =>
    cases hclean with
    | array hvalues =>
      rw [List.forall_mem_append, List.forall_mem_cons] at hvalues
      refine .array ?_
      rw [List.forall_mem_append, List.forall_mem_cons]
      exact ⟨hvalues.1, ih hvalues.2.1, hvalues.2.2⟩

/-- What a sanitized dictionary or array should be: the serializer takes it, it has only what is
meant to be serialized, and sanitizing it again changes nothing. -/
structure Sanitized (json : NSJSONSerialization) (texts : Texts) (object : Object) : Prop where
  accepted : (dataWithJSONObject json object).isSome
  serializable : Serializable object
  again : ∀ again, Reordered object again → sanitizeObject texts again = again

/-- A number that is not finite passes through at any depth and makes the whole object invalid. -/
theorem isValidObject_sanitizeObject_iff (texts : Texts) (object : Object) :
    isValidObject (sanitizeObject texts object) = true ↔ KeepsFinite texts object := by
  rw [← serializable_sanitizeObject_iff]
  exact ⟨(clean_sanitizeObject texts object).serializable, Serializable.isValidObject⟩

/-- The result of sanitizing a dictionary or an array is as it should be if and only if all numbers
that are kept are finite. -/
theorem sanitized_iff_keepsFinite (json : NSJSONSerialization) (texts : Texts) :
    (∀ dictionary, ∃ result, sentry_sanitize texts (some dictionary) = some result ∧
      (Sanitized json texts (.dictionary result) ↔ KeepsFinite texts (.dictionary dictionary))) ∧
    ∀ array, Sanitized json texts (.array (sanitizeArray texts array)) ↔
      KeepsFinite texts (.array array) := by
  have hsanitized : ∀ object, isValidJSONObject (sanitizeObject texts object) =
        isValidObject (sanitizeObject texts object) →
      (Sanitized json texts (sanitizeObject texts object) ↔ KeepsFinite texts object) := by
    intro object hcontainer
    rw [← isValidObject_sanitizeObject_iff]
    constructor
    · intro h
      rw [← hcontainer, ← dataWithJSONObject_isSome json]
      exact h.accepted
    · intro hvalid
      have hclean := clean_sanitizeObject texts object
      refine ⟨?_, hclean.serializable hvalid, fun again hagain => ?_⟩
      · rw [dataWithJSONObject_isSome, hcontainer]
        exact hvalid
      · exact (hclean.reordered hagain).sanitizeObject texts
  constructor
  · intro dictionary
    have h := hsanitized (.dictionary dictionary)
    rw [sanitizeObject] at h
    exact ⟨_, rfl, h rfl⟩
  · intro array
    have h := hsanitized (.array array)
    rw [sanitizeObject] at h
    exact h rfl

/-- A dictionary with a number that is not one, in an array. -/
def notANumber : List (Object × Object) :=
  [(.string "measurements", .array [.number (.nonFinite 0)])]

theorem not_sanitized_notANumber :
    ¬ ∃ result, sentry_sanitize ⟨fun _ => "1970-01-01T00:00:00.000Z", fun _ => "<null>"⟩
        (some notANumber) = some result ∧
      Sanitized ⟨fun _ => some .empty, fun _ _ => rfl⟩
        ⟨fun _ => "1970-01-01T00:00:00.000Z", fun _ => "<null>"⟩ (.dictionary result) := by
  rintro ⟨result, hresult, h⟩
  cases hresult
  have haccepted := h.accepted
  rw [dataWithJSONObject_isSome] at haccepted
  exact absurd haccepted (by decide)

/-! ## Values -/

section

mutual

/-- A value as an object. -/
def ofValue : Value → Object
  | .null => .null
  | .number value => .number value
  | .string value => .string value
  | .date value => .date value
  | .data bytes => .data bytes
  | .array values => .array (ofValues values)
  | .dictionary entries => .dictionary (ofEntries (ofValueEntries entries))
  | .other className => .other className

def ofValues : List Value → List Object
  | [] => []
  | value :: rest => ofValue value :: ofValues rest

def ofValueEntries : List (String × Value) → List (String × Object)
  | [] => []
  | (key, value) :: rest => (key, ofValue value) :: ofValueEntries rest

end

/-- The keys of each dictionary are distinct. -/
inductive DistinctKeys : Value → Prop
  | null : DistinctKeys .null
  | number (value : NSNumber) : DistinctKeys (.number value)
  | string (value : String) : DistinctKeys (.string value)
  | date (value : NSDate) : DistinctKeys (.date value)
  | data (bytes : List UInt8) : DistinctKeys (.data bytes)
  | array {values : List Value} (h : ∀ value ∈ values, DistinctKeys value) :
    DistinctKeys (.array values)
  | dictionary {entries : List (String × Value)} (hdistinct : (entries.map Prod.fst).Nodup)
    (h : ∀ entry ∈ entries, DistinctKeys entry.2) : DistinctKeys (.dictionary entries)
  | other (className : String) : DistinctKeys (.other className)

theorem ofValues_eq_map (values : List Value) : ofValues values = values.map ofValue := by
  induction values with
  | nil => rfl
  | cons value rest ih => rw [ofValues, ih, List.map_cons]

theorem ofValueEntries_eq_map (entries : List (String × Value)) :
    ofValueEntries entries = entries.map fun entry => (entry.1, ofValue entry.2) := by
  induction entries with
  | nil => rfl
  | cons entry rest ih => rw [ofValueEntries, ih, List.map_cons]

variable [Scope.Descriptions]

theorem scope_sanitizeArray_eq_map (values : List Value) :
    Scope.sanitizeArray values = values.map Scope.sanitizeValue := by
  induction values with
  | nil => rfl
  | cons value rest ih => rw [Scope.sanitizeArray, ih, List.map_cons]

theorem sentrySanitize_eq_map (entries : List (String × Value)) :
    Scope.sentrySanitize entries = (entries.filter fun entry => !isSentryKey entry.1).map
      fun entry => (entry.1, Scope.sanitizeValue entry.2) := by
  induction entries with
  | nil => rfl
  | cons entry rest ih =>
    obtain ⟨key, value⟩ := entry
    rw [Scope.sentrySanitize]
    split
    · next hkey => rw [ih, List.filter_cons_of_neg (by simpa using hkey)]
    · next hkey => rw [ih, List.filter_cons_of_pos (by simpa using hkey), List.map_cons]

/-- On the values of users and breadcrumbs this is how they are sanitized. -/
theorem sanitizeObject_ofValue {texts : Texts}
    (hdates : ∀ date, texts.toIso8601String date = Scope.Descriptions.dates.toIso8601String date)
    (hdescription : ∀ value, texts.description (ofValue value) =
      Scope.Descriptions.description value)
    {value : Value} (h : DistinctKeys value) :
    sanitizeObject texts (ofValue value) = ofValue (Scope.sanitizeValue value) := by
  induction h with
  | null =>
    rw [Scope.sanitizeValue, ofValue, ofValue, sanitizeObject, ← hdescription, ofValue]
  | number value => rw [Scope.sanitizeValue, ofValue, sanitizeObject]
  | string value => rw [Scope.sanitizeValue, ofValue, sanitizeObject]
  | date value => rw [Scope.sanitizeValue, ofValue, ofValue, sanitizeObject, hdates]
  | data bytes =>
    rw [Scope.sanitizeValue, ofValue, ofValue, sanitizeObject, ← hdescription, ofValue]
  | array _ ih =>
    rw [Scope.sanitizeValue, ofValue, ofValue, sanitizeObject, sanitizeArray_eq_map,
      scope_sanitizeArray_eq_map, ofValues_eq_map, ofValues_eq_map, List.map_map, List.map_map]
    exact congrArg Object.array (List.map_congr_left ih)
  | dictionary hdistinct _ ih =>
    rw [Scope.sanitizeValue, ofValue, ofValue, sanitizeObject, ofValueEntries_eq_map,
      sanitizeEntries_ofEntries _ [] _ (by rw [List.nil_append, List.map_map]; exact hdistinct),
      List.nil_append, sentrySanitize_eq_map, ofValueEntries_eq_map, List.filter_map, List.map_map,
      List.map_map]
    refine congrArg (fun dict => Object.dictionary (ofEntries dict))
      (List.map_congr_left fun entry hentry => Prod.ext rfl ?_)
    exact ih entry (List.mem_filter.1 hentry).1
  | other className =>
    rw [Scope.sanitizeValue, ofValue, ofValue, sanitizeObject, ← hdescription, ofValue]

end

end SentryCocoa.Sanitize
