import Mathlib.Data.List.Induction
import SentryCocoa.Baggage
import SentryCocoa.Library.Admission

/-! What the baggage header gives back: the dictionary that was encoded, the length of the text,
and the entries of another vendor that pass through it. -/
namespace SentryCocoa.Baggage
open SentryCocoa.Foundation SentryCocoa.Library.PercentEncoding SentryCocoa.Library.Admission

/-! The items that are written. -/

def encodable (entry : String × String) : Bool := !entry.1.isEmpty && !entry.2.isEmpty

/-- An item takes the room of a comma besides its own. -/
def weight (entry : String × String) : Nat := (item entry).length + 1

def capacity : Nat := SENTRY_BAGGAGE_MAX_SIZE + 1

/-- The entries that get into the text. -/
def accepted (entries : List (String × String)) : List (String × String) :=
  fill weight capacity 0 (entries.filter encodable)

theorem items_foldl_appendItem (entries : List (String × String)) (state : Items) :
    (entries.foldl appendItem state).items = state.items ++
      (fill weight capacity state.currentSize (entries.filter encodable)).map item := by
  induction entries generalizing state with
  | nil => exact (List.append_nil _).symm
  | cons entry entries ih =>
    have hskip : (encodable entry = false ∧ appendItem state entry = state) ∨
        (encodable entry = true ∧ appendItem state entry =
          if weight entry + state.currentSize ≤ capacity then
            ⟨state.items ++ [item entry], state.currentSize + weight entry⟩ else state) := by
      unfold appendItem encodable
      simp only [addingPercentEncoding_eq_empty]
      cases entry.1.isEmpty <;> cases entry.2.isEmpty
      · right
        refine ⟨rfl, ?_⟩
        have hfits : weight entry + state.currentSize ≤ capacity ↔
            (item entry).length + state.currentSize ≤ SENTRY_BAGGAGE_MAX_SIZE := by
          unfold weight capacity
          omega
        simp only [hfits]
        rfl
      · exact Or.inl ⟨rfl, rfl⟩
      · exact Or.inl ⟨rfl, rfl⟩
      · exact Or.inl ⟨rfl, rfl⟩
    rw [List.foldl_cons, ih]
    rcases hskip with ⟨hencodable, hstate⟩ | ⟨hencodable, hstate⟩
    · rw [hstate, List.filter_cons_of_neg (Bool.eq_false_iff.mp hencodable)]
    · rw [hstate, List.filter_cons_of_pos hencodable, fill]
      split
      · rw [List.map_cons, List.append_assoc, List.singleton_append]
      · rfl

theorem length_intercalate (items : List String) (hne : items ≠ []) :
    (",".intercalate items).length + 1 = (items.map fun item => item.length + 1).sum := by
  induction items with
  | nil => exact absurd rfl hne
  | cons item items ih =>
    cases items with
    | nil => rw [String.intercalate_singleton, List.map_singleton, List.sum_singleton]
    | cons item' items =>
      have hrest := ih (List.cons_ne_nil _ _)
      rw [String.intercalate_cons_cons, String.length_append, String.length_append,
        List.map_cons, List.sum_cons, ← hrest]
      have hcomma : (",":String).length = 1 := rfl
      omega

/-- The items of the text, in its order. -/
def sortedItems (entries : List (String × String)) : List String :=
  ((accepted entries).map item).mergeSort fun item item' => item ≤ item'

theorem sortedItems_perm (entries : List (String × String)) :
    (sortedItems entries).Perm ((accepted entries).map item) :=
  List.mergeSort_perm _ _

theorem encodeDictionary_eq (iteration : Iteration) (d : NSDictionary String) :
    encodeDictionary iteration d = ",".intercalate (sortedItems (iteration.entries d)) := by
  have hitems := items_foldl_appendItem (iteration.entries d) ⟨[], 0⟩
  unfold encodeDictionary sortedItems accepted
  dsimp only
  rw [hitems, List.nil_append]

theorem total_weight (entries : List (String × String)) :
    total weight entries = ((entries.map item).map fun item => item.length + 1).sum := by
  rw [List.map_map]
  rfl

/-- However many entries there are. -/
theorem length_encodeDictionary_le (iteration : Iteration) (d : NSDictionary String) :
    (encodeDictionary iteration d).length ≤ SENTRY_BAGGAGE_MAX_SIZE := by
  have hperm := sortedItems_perm (iteration.entries d)
  have htotal : 0 + total weight (accepted (iteration.entries d)) ≤ capacity :=
    total_fill_le (Nat.zero_le capacity) _
  rw [Nat.zero_add, total_weight, ← (hperm.map _).sum_nat] at htotal
  rw [encodeDictionary_eq]
  cases hitems : sortedItems (iteration.entries d) with
  | nil =>
    rw [String.intercalate_nil]
    exact Nat.zero_le _
  | cons item items =>
    rw [hitems] at htotal
    have hlength := length_intercalate (item :: items) (List.cons_ne_nil _ _)
    unfold capacity at htotal
    omega

/-! What is read. -/

/-- The later of two entries with one key wins. -/
def ofPairs (entries : List (String × String)) : NSDictionary String :=
  entries.foldl (fun d entry => d.insert entry.1 entry.2) ∅

theorem decode_eq (baggage : String) (hne : baggage ≠ "") :
    decode baggage = ofPairs ((componentsSeparatedBy ',' baggage).filterMap decodeProperty) := by
  have hempty : baggage.isEmpty = false := by
    rw [Bool.eq_false_iff, ne_eq, String.isEmpty_iff]
    exact hne
  unfold decode ofPairs
  rw [hempty, List.foldl_filterMap]
  simp only [Bool.false_eq_true, if_false]
  congr 1
  funext d property
  cases decodeProperty property <;> rfl

theorem ofPairs_append_singleton (entries : List (String × String)) (entry : String × String) :
    ofPairs (entries ++ [entry]) = (ofPairs entries).insert entry.1 entry.2 := by
  unfold ofPairs
  rw [List.foldl_append]
  rfl

theorem mem_of_objectForKey_ofPairs {entries : List (String × String)} {key value : String}
    (h : (ofPairs entries).objectForKey key = some value) : (key, value) ∈ entries := by
  induction entries using List.reverseRecOn with
  | nil => cases h
  | append_singleton entries entry ih =>
    rw [ofPairs_append_singleton, objectForKey_insert] at h
    split at h
    · rename_i hkey
      cases h
      rw [hkey]
      exact List.mem_append_right _ (List.mem_singleton.mpr rfl)
    · exact List.mem_append_left _ (ih h)

theorem exists_objectForKey_ofPairs {entries : List (String × String)} {key value : String}
    (h : (key, value) ∈ entries) : ∃ value', (ofPairs entries).objectForKey key = some value' := by
  induction entries using List.reverseRecOn with
  | nil => cases h
  | append_singleton entries entry ih =>
    rw [ofPairs_append_singleton, objectForKey_insert]
    split
    · exact ⟨_, rfl⟩
    · rename_i hkey
      rcases List.mem_append.mp h with hmem | hlast
      · exact ih hmem
      · rw [← List.mem_singleton.mp hlast] at hkey
        exact absurd rfl hkey

/-- Where one key has one value, that value is read. -/
theorem objectForKey_ofPairs {entries : List (String × String)} {key value : String}
    (hmem : (key, value) ∈ entries)
    (hunique : ∀ value', (key, value') ∈ entries → value' = value) :
    (ofPairs entries).objectForKey key = some value := by
  obtain ⟨value', hvalue'⟩ := exists_objectForKey_ofPairs hmem
  rw [hvalue', hunique value' (mem_of_objectForKey_ofPairs hvalue')]

theorem mem_pairs {d : NSDictionary String} {key value : String} :
    (key, value) ∈ pairs d ↔ d.objectForKey key = some value := by
  unfold pairs
  constructor
  · intro h
    obtain ⟨entry, hentry, heq⟩ := List.mem_map.mp h
    cases heq
    exact AList.mem_lookup_iff.mpr hentry
  · intro h
    exact List.mem_map.mpr ⟨⟨key, value⟩, AList.mem_lookup_iff.mp h, rfl⟩

theorem nodup_keys_pairs (d : NSDictionary String) : ((pairs d).map Prod.fst).Nodup := by
  have hkeys := d.nodupKeys
  unfold pairs
  rw [List.map_map]
  exact hkeys

theorem mem_entries {iteration : Iteration} {d : NSDictionary String} {key value : String} :
    (key, value) ∈ iteration.entries d ↔ d.objectForKey key = some value := by
  rw [(iteration.perm d).mem_iff, mem_pairs]

theorem accepted_subset {entries : List (String × String)} {entry : String × String}
    (h : entry ∈ accepted entries) : entry ∈ entries ∧ encodable entry = true :=
  List.mem_filter.mp ((fill_sublist 0 _).subset h)

/-- The text as a list of properties. -/
theorem filterMap_encodeDictionary {β : Type} (f : String → Option β) (hempty : f "" = none)
    (iteration : Iteration) (d : NSDictionary String) :
    ((componentsSeparatedBy ',' (encodeDictionary iteration d)).filterMap f).Perm
      ((accepted (iteration.entries d)).filterMap fun entry => f (item entry)) := by
  have hperm := sortedItems_perm (iteration.entries d)
  rw [encodeDictionary_eq]
  cases hitems : sortedItems (iteration.entries d) with
  | nil =>
    rw [hitems] at hperm
    rw [List.map_eq_nil_iff.mp (List.nil_perm.mp hperm), String.intercalate_nil]
    change ([""].filterMap f).Perm []
    rw [List.filterMap_cons_none hempty]
    exact List.Perm.refl _
  | cons first rest =>
    rw [← hitems, componentsSeparatedBy_intercalate]
    · have hmap := hperm.filterMap f
      rwa [List.filterMap_map] at hmap
    · rw [hitems]
      exact List.cons_ne_nil _ _
    · intro item hitem
      obtain ⟨entry, -, rfl⟩ := List.mem_map.mp (hperm.subset hitem)
      exact comma_notMem_item entry

/-- The values that are read from an encoded dictionary, each under its encoded key. -/
theorem objectForKey_decode_encodeDictionary (iteration : Iteration) (d : NSDictionary String)
    (key value : String) :
    (decode (encodeDictionary iteration d)).objectForKey key = some value ↔
      ∃ entry ∈ accepted (iteration.entries d),
        addingPercentEncoding entry.1 = key ∧ entry.2 = value := by
  have hperm := filterMap_encodeDictionary decodeProperty rfl iteration d
  simp only [decodeProperty_item] at hperm
  have hmem : ∀ key value, (key, value) ∈ (componentsSeparatedBy ','
      (encodeDictionary iteration d)).filterMap decodeProperty ↔
        ∃ entry ∈ accepted (iteration.entries d),
          addingPercentEncoding entry.1 = key ∧ entry.2 = value := by
    intro key value
    rw [hperm.mem_iff, List.mem_filterMap]
    simp only [Option.some.injEq, Prod.mk.injEq]
  by_cases hempty : encodeDictionary iteration d = ""
  · rw [← hmem, hempty]
    constructor
    · intro h
      cases h
    · intro h
      cases h
  · rw [decode_eq _ hempty, ← hmem]
    constructor
    · exact mem_of_objectForKey_ofPairs
    · intro h
      refine objectForKey_ofPairs h fun value' h' => ?_
      obtain ⟨entry, hentry, hkey, rfl⟩ := (hmem key value).mp h
      obtain ⟨entry', hentry', hkey', rfl⟩ := (hmem key value').mp h'
      have hkeys := addingPercentEncoding_injective (hkey'.trans hkey.symm)
      have hobject := mem_entries.mp (accepted_subset hentry).1
      have hobject' := mem_entries.mp (accepted_subset hentry').1
      rw [hkeys, hobject] at hobject'
      exact (Option.some.inj hobject').symm

/-! A dictionary that is encoded and decoded. -/

/-- No text is empty, and all of the items fit into the header. -/
structure FittingDictionary where
  dictionary : NSDictionary String
  nonempty : ∀ entry ∈ pairs dictionary, entry.1 ≠ "" ∧ entry.2 ≠ ""
  fits : (",".intercalate ((pairs dictionary).map item)).length ≤ SENTRY_BAGGAGE_MAX_SIZE

def SameEntries (d d' : NSDictionary String) : Prop :=
  ∀ key, d.objectForKey key = d'.objectForKey key

theorem encodable_iff {entry : String × String} :
    encodable entry = true ↔ entry.1 ≠ "" ∧ entry.2 ≠ "" := by
  unfold encodable
  simp [Bool.and_eq_true]

theorem FittingDictionary.accepted_eq (fitting : FittingDictionary) (iteration : Iteration) :
    accepted (iteration.entries fitting.dictionary) = iteration.entries fitting.dictionary := by
  have hperm := iteration.perm fitting.dictionary
  have hall : ∀ entry ∈ iteration.entries fitting.dictionary, encodable entry = true :=
    fun entry hentry => encodable_iff.mpr (fitting.nonempty entry (hperm.subset hentry))
  have htotal : total weight (pairs fitting.dictionary) ≤ capacity := by
    have hfits := fitting.fits
    rw [total_weight]
    cases hpairs : (pairs fitting.dictionary).map item with
    | nil => exact Nat.zero_le _
    | cons first rest =>
      rw [hpairs] at hfits
      have hlength := length_intercalate (first :: rest) (List.cons_ne_nil _ _)
      unfold capacity
      omega
  unfold accepted
  rw [List.filter_eq_self.mpr hall]
  apply fill_eq_self
  rwa [Nat.zero_add, total, (hperm.map weight).sum_nat]

theorem length_lt_of_not_plainKey {key : String} (h : ¬ PlainKey key) :
    key.length < (addingPercentEncoding key).length := by
  have hlength := length_encode allowedSet key.toList
  unfold addingPercentEncoding
  rw [String.length_ofList]
  refine lt_of_le_of_ne hlength.1 fun heq => h (hlength.2 heq.symm)

/-- Keys that are all encodings of one another are plain: the shortest that is not would be the
encoding of a shorter one. -/
theorem plainKey_of_encodings (holds : String → Prop)
    (h : ∀ key, holds key → ∃ key', holds key' ∧ addingPercentEncoding key' = key) :
    ∀ key, holds key → PlainKey key := by
  intro key
  induction hlength : key.length using Nat.strong_induction_on generalizing key with
  | _ length ih =>
    intro hkey
    obtain ⟨key', hkey', rfl⟩ := h key hkey
    have hplain : PlainKey key' := by
      by_contra hnot
      have hlt := length_lt_of_not_plainKey hnot
      exact hnot (ih key'.length (hlength ▸ hlt) key' rfl hkey')
    rwa [addingPercentEncoding_eq_self.mpr hplain]

/-- The dictionary comes back exactly when its keys are written as they are. -/
theorem FittingDictionary.sameEntries_iff (fitting : FittingDictionary) (iteration : Iteration) :
    SameEntries (decode (encodeDictionary iteration fitting.dictionary)) fitting.dictionary ↔
      ∀ entry ∈ pairs fitting.dictionary, PlainKey entry.1 := by
  have hdecode : ∀ key value, (decode (encodeDictionary iteration
      fitting.dictionary)).objectForKey key = some value ↔ ∃ key',
        fitting.dictionary.objectForKey key' = some value ∧ addingPercentEncoding key' = key := by
    intro key value
    rw [objectForKey_decode_encodeDictionary, fitting.accepted_eq]
    constructor
    · rintro ⟨⟨key', value'⟩, hentry, hkey, rfl⟩
      exact ⟨key', mem_entries.mp hentry, hkey⟩
    · rintro ⟨key', hobject, hkey⟩
      exact ⟨(key', value), mem_entries.mpr hobject, hkey, rfl⟩
  constructor
  · intro same ⟨key, value⟩ hentry
    refine plainKey_of_encodings
      (fun key => ∃ value, fitting.dictionary.objectForKey key = some value)
      ?_ key ⟨value, mem_pairs.mp hentry⟩
    rintro key ⟨value, hvalue⟩
    rw [← same key] at hvalue
    obtain ⟨key', hobject, hkey⟩ := (hdecode key value).mp hvalue
    exact ⟨key', ⟨value, hobject⟩, hkey⟩
  · intro plain key
    have hself : ∀ key value, fitting.dictionary.objectForKey key = some value →
        addingPercentEncoding key = key := fun key value hobject =>
      addingPercentEncoding_eq_self.mpr (plain (key, value) (mem_pairs.mpr hobject))
    apply Option.ext
    intro value
    rw [hdecode]
    constructor
    · rintro ⟨key', hobject, rfl⟩
      rwa [hself key' value hobject]
    · intro hobject
      exact ⟨key, hobject, hself key value hobject⟩

/-! The entries of another vendor. -/

/-- A key that no entry of the trace has. -/
def ThirdParty (key : String) : Prop := ¬ "sentry-".toList <+: key.toList

/-- The value begins after the first equals sign. -/
def entryOfProperty (property : String) : Option (String × String) :=
  match componentsSeparatedBy '=' property with
  | key :: value :: rest => some (key, "=".intercalate (value :: rest))
  | _ => none

/-- The entries of a header, with their values as they stand there. -/
def headerEntries (header : String) : List (String × String) :=
  (componentsSeparatedBy ',' header).filterMap entryOfProperty

/-- Each entry of another vendor is there again, with its key and the value that its text
stands for. -/
def Kept (header result : String) : Prop :=
  ∀ entry ∈ headerEntries header, ThirdParty entry.1 →
    ∃ entry' ∈ headerEntries result, entry'.1 = entry.1 ∧
      ∃ value, removingPercentEncoding entry.2 = some value ∧
        removingPercentEncoding entry'.2 = some value

/-- The key needs no escapes; the value is what `decode` reads under the key; neither is empty;
and the other entries leave room for it. -/
def Passes (baggage : SentryBaggage) (header : String) (entry : String × String) : Prop :=
  PlainKey entry.1 ∧ ∃ value, removingPercentEncoding entry.2 = some value ∧
    (decode header).objectForKey entry.1 = some value ∧ encodable (entry.1, value) = true ∧
    Uncrowded weight capacity (entry.1, value)
      ((pairs (baggage.information (decode header))).filter encodable)

theorem thirdParty_of_addingPercentEncoding {key : String}
    (h : ThirdParty (addingPercentEncoding key)) : ThirdParty key := by
  rintro ⟨rest, hrest⟩
  have hplain : ∀ c ∈ "sentry-".toList, stands allowedSet c = true :=
    List.all_eq_true.mp (by decide)
  refine h ⟨encode allowedSet rest, ?_⟩
  unfold addingPercentEncoding
  rw [← hrest, encode_append, encode_eq_self hplain]
  exact String.toList_ofList.symm

theorem objectForKey_information (baggage : SentryBaggage) (originalBaggage : NSDictionary String)
    {key : String} (h : ThirdParty key) :
    (baggage.information originalBaggage).objectForKey key = originalBaggage.objectForKey key := by
  have hne : ∀ name : String, "sentry-".toList <+: name.toList → key ≠ name := by
    rintro name hname rfl
    exact h hname
  unfold SentryBaggage.information
  simp only [objectForKey_insertIfPresent, objectForKey_insert,
    if_neg (hne "sentry-replay_id" (by decide)), if_neg (hne "sentry-sampled" (by decide)),
    if_neg (hne "sentry-sample_rate" (by decide)), if_neg (hne "sentry-user_segment" (by decide)),
    if_neg (hne "sentry-transaction" (by decide)), if_neg (hne "sentry-environment" (by decide)),
    if_neg (hne "sentry-release" (by decide)), if_neg (hne "sentry-public_key" (by decide)),
    if_neg (hne "sentry-trace_id" (by decide))]

theorem entryOfProperty_of_decodeProperty {property key value : String}
    (h : decodeProperty property = some (key, value)) :
    ∃ text, entryOfProperty property = some (key, text) ∧
      removingPercentEncoding text = some value := by
  unfold decodeProperty at h
  split at h
  · rename_i first second hcomponents
    obtain ⟨value', hvalue', heq⟩ := Option.map_eq_some_iff.mp h
    cases heq
    refine ⟨second, ?_, hvalue'⟩
    unfold entryOfProperty
    rw [hcomponents]
    dsimp only
    rw [String.intercalate_singleton]
  · cases h

theorem entryOfProperty_item (entry : String × String) :
    entryOfProperty (item entry) =
      some (addingPercentEncoding entry.1, addingPercentEncoding entry.2) := by
  unfold entryOfProperty componentsSeparatedBy
  rw [toList_item, List.splitOn_append_cons_self_of_not_mem (equals_notMem _),
    List.splitOn_eq_singleton (equals_notMem _)]
  simp only [List.map_cons, List.map_nil, String.ofList_toList, String.intercalate_singleton]

/-- What is decoded stands in the header. -/
theorem mem_headerEntries_of_decode {header key value : String}
    (h : (decode header).objectForKey key = some value) :
    ∃ text, (key, text) ∈ headerEntries header ∧ removingPercentEncoding text = some value := by
  have hne : header ≠ "" := by
    rintro rfl
    cases h
  rw [decode_eq header hne] at h
  obtain ⟨property, hproperty, hdecode⟩ := List.mem_filterMap.mp (mem_of_objectForKey_ofPairs h)
  obtain ⟨text, hentry, htext⟩ := entryOfProperty_of_decodeProperty hdecode
  exact ⟨text, List.mem_filterMap.mpr ⟨property, hproperty, hentry⟩, htext⟩

theorem mem_headerEntries_encodeDictionary {iteration : Iteration} {d : NSDictionary String}
    {entry : String × String} :
    entry ∈ headerEntries (encodeDictionary iteration d) ↔
      ∃ entry' ∈ accepted (iteration.entries d),
        (addingPercentEncoding entry'.1, addingPercentEncoding entry'.2) = entry := by
  unfold headerEntries
  rw [(filterMap_encodeDictionary entryOfProperty rfl iteration d).mem_iff, List.mem_filterMap]
  simp only [entryOfProperty_item, Option.some.injEq]

theorem exists_iteration {d : NSDictionary String} {order : List (String × String)}
    (h : order.Perm (pairs d)) : ∃ iteration : Iteration, iteration.entries d = order := by
  classical
  refine ⟨⟨fun d' => if d' = d then order else pairs d', fun d' => ?_⟩, if_pos rfl⟩
  split
  · rename_i heq
    rw [heq]
    exact h
  · exact List.Perm.refl _

section Passing
variable {baggage : SentryBaggage} {header : String} {entry : String × String}

theorem Passes.kept (h : Passes baggage header entry) (hparty : ThirdParty entry.1)
    (iteration : Iteration) :
    ∃ entry' ∈ headerEntries
        (baggage.toHTTPHeaderWithOriginalBaggage iteration (some (decode header))),
      entry'.1 = entry.1 ∧ ∃ value, removingPercentEncoding entry.2 = some value ∧
        removingPercentEncoding entry'.2 = some value := by
  obtain ⟨hplain, value, htext, hread, hencodable, hroom⟩ := h
  have hmem : (entry.1, value) ∈ iteration.entries (baggage.information (decode header)) := by
    rw [mem_entries, objectForKey_information baggage _ hparty, hread]
  have hperm := (iteration.perm (baggage.information (decode header))).filter encodable
  have haccepted : (entry.1, value) ∈
      accepted (iteration.entries (baggage.information (decode header))) :=
    mem_fill_of_uncrowded (List.mem_filter.mpr ⟨hmem, hencodable⟩) (hroom.perm hperm)
  refine ⟨(addingPercentEncoding entry.1, addingPercentEncoding value),
    mem_headerEntries_encodeDictionary.mpr ⟨_, haccepted, rfl⟩, ?_, value, htext, ?_⟩
  · exact addingPercentEncoding_eq_self.mpr hplain
  · exact removingPercentEncoding_addingPercentEncoding value

/-- What the result has under a key of another vendor was read from the header. -/
theorem Kept.accepted {iteration : Iteration}
    (h : Kept header (baggage.toHTTPHeaderWithOriginalBaggage iteration (some (decode header))))
    (hentry : entry ∈ headerEntries header) (hparty : ThirdParty entry.1) :
    ∃ key value, addingPercentEncoding key = entry.1 ∧ ThirdParty key ∧
      removingPercentEncoding entry.2 = some value ∧
      (decode header).objectForKey key = some value ∧
      (key, value) ∈ Baggage.accepted (iteration.entries (baggage.information (decode header))) := by
  obtain ⟨entry', hentry', hkey, value, htext, htext'⟩ := h entry hentry hparty
  obtain ⟨⟨key, value'⟩, haccepted, rfl⟩ := mem_headerEntries_encodeDictionary.mp hentry'
  rw [removingPercentEncoding_addingPercentEncoding, Option.some.injEq] at htext'
  subst htext'
  have hparty' : ThirdParty key := by
    apply thirdParty_of_addingPercentEncoding
    rwa [show addingPercentEncoding key = entry.1 from hkey]
  refine ⟨key, value', hkey, hparty', htext, ?_, haccepted⟩
  rw [← objectForKey_information baggage _ hparty', ← mem_entries]
  exact (accepted_subset haccepted).1

theorem Kept.plainKey {iteration : Iteration}
    (h : Kept header (baggage.toHTTPHeaderWithOriginalBaggage iteration (some (decode header))))
    (hentry : entry ∈ headerEntries header) (hparty : ThirdParty entry.1) : PlainKey entry.1 := by
  refine plainKey_of_encodings
    (fun key => ThirdParty key ∧ ∃ text, (key, text) ∈ headerEntries header)
    ?_ entry.1 ⟨hparty, entry.2, hentry⟩
  rintro key ⟨hkey, text, hmem⟩
  obtain ⟨key', value, hencoding, hkey', -, hread, -⟩ := h.accepted hmem hkey
  obtain ⟨text', hmem', -⟩ := mem_headerEntries_of_decode hread
  exact ⟨key', ⟨hkey', text', hmem'⟩, hencoding⟩

/-- An entry that is kept in every order is one that passes. -/
theorem passes_of_kept (h : ∀ iteration,
      Kept header (baggage.toHTTPHeaderWithOriginalBaggage iteration (some (decode header))))
    (hentry : entry ∈ headerEntries header) (hparty : ThirdParty entry.1) :
    Passes baggage header entry := by
  have hself : ∀ iteration : Iteration, ∃ value, removingPercentEncoding entry.2 = some value ∧
      (decode header).objectForKey entry.1 = some value ∧ (entry.1, value) ∈
        Baggage.accepted (iteration.entries (baggage.information (decode header))) := by
    intro iteration
    have hplain := (h iteration).plainKey hentry hparty
    obtain ⟨key, value, hkey, -, htext, hread, haccepted⟩ := (h iteration).accepted hentry hparty
    have hsame : key = entry.1 := addingPercentEncoding_injective
      (hkey.trans (addingPercentEncoding_eq_self.mpr hplain).symm)
    rw [hsame] at hread haccepted
    exact ⟨value, htext, hread, haccepted⟩
  obtain ⟨iteration, -⟩ := exists_iteration
    (List.Perm.refl (pairs (baggage.information (decode header))))
  obtain ⟨value, htext, hread, haccepted⟩ := hself iteration
  refine ⟨(h iteration).plainKey hentry hparty, value, htext, hread,
    (accepted_subset haccepted).2, ?_⟩
  have hnodup : (pairs (baggage.information (decode header))).Nodup :=
    List.Nodup.of_map _ (nodup_keys_pairs _)
  apply uncrowded_of_forall_perm (hnodup.filter _)
  intro order horder
  -- The entries without text may come last.
  have hwhole : (order ++ (pairs (baggage.information (decode header))).filter
      fun entry => !encodable entry).Perm (pairs (baggage.information (decode header))) :=
    (horder.append_right _).trans (List.filter_append_perm _ _)
  obtain ⟨iteration, hiteration⟩ := exists_iteration hwhole
  obtain ⟨value', htext', -, haccepted'⟩ := hself iteration
  have hvalue : value' = value := Option.some.inj (htext'.symm.trans htext)
  have hfilter : (order ++ (pairs (baggage.information (decode header))).filter
      fun entry => !encodable entry).filter encodable = order := by
    rw [List.filter_append, List.filter_eq_self.mpr, List.filter_eq_nil_iff.mpr, List.append_nil]
    · intro entry hentry hencodable
      have hnot := (List.mem_filter.mp hentry).2
      rw [hencodable] at hnot
      cases hnot
    · exact fun entry hentry => (List.mem_filter.mp (horder.subset hentry)).2
  rw [hvalue, hiteration, Baggage.accepted, hfilter] at haccepted'
  exact haccepted'

end Passing

/-- A request that passes again keeps its header, unless the trace found no room in it. -/
theorem addBaggageHeader_addBaggageHeader (iteration : Iteration) (baggage : SentryBaggage)
    (header : Option String)
    (htrace : ("sentry-trace_id", baggage.traceId) ∈
      accepted (iteration.entries (baggage.information (decode (header.getD ""))))) :
    addBaggageHeader iteration (some baggage) (addBaggageHeader iteration (some baggage) header) =
      addBaggageHeader iteration (some baggage) header := by
  have hplain : PlainKey "sentry-trace_id" := List.all_eq_true.mp (by decide)
  have hread : (decode (baggage.toHTTPHeaderWithOriginalBaggage iteration
      (some (decode (header.getD ""))))).objectForKey "sentry-trace_id" = some baggage.traceId := by
    unfold SentryBaggage.toHTTPHeaderWithOriginalBaggage
    rw [objectForKey_decode_encodeDictionary]
    exact ⟨_, htrace, addingPercentEncoding_eq_self.mpr hplain, rfl⟩
  have hstays : ∀ header' : Option String,
      (decode (header'.getD "")).objectForKey "sentry-trace_id" ≠ none →
        addBaggageHeader iteration (some baggage) header' = header' := by
    intro header' hsome
    unfold addBaggageHeader
    simp only [if_neg hsome]
    rfl
  by_cases hnone : (decode (header.getD "")).objectForKey "sentry-trace_id" = none
  · by_cases hempty : 0 < (baggage.toHTTPHeaderWithOriginalBaggage iteration
        (some (decode (header.getD "")))).length
    · have hfirst : addBaggageHeader iteration (some baggage) header =
          some (baggage.toHTTPHeaderWithOriginalBaggage iteration
            (some (decode (header.getD "")))) := by
        unfold addBaggageHeader
        simp only [if_pos hnone, if_pos hempty]
      rw [hfirst]
      apply hstays
      rw [Option.getD_some, hread]
      exact Option.some_ne_none _
    · have hfirst : addBaggageHeader iteration (some baggage) header = header := by
        unfold addBaggageHeader
        simp only [if_pos hnone, if_neg hempty]
      rw [hfirst, hfirst]
  · rw [hstays header hnone, hstays header hnone]

/-- A dictionary comes back when its keys need no escapes; the text always fits; and the entries
of another vendor are kept when they pass. -/
theorem baggage_round_trip_iff (iteration : Iteration) (fitting : FittingDictionary)
    (d : NSDictionary String) (baggage : SentryBaggage) (header : String) :
    (SameEntries (decode (encodeDictionary iteration fitting.dictionary)) fitting.dictionary ↔
      ∀ entry ∈ pairs fitting.dictionary, PlainKey entry.1) ∧
    (encodeDictionary iteration d).length ≤ SENTRY_BAGGAGE_MAX_SIZE ∧
    ((∀ iteration : Iteration, Kept header
        (baggage.toHTTPHeaderWithOriginalBaggage iteration (some (decode header)))) ↔
      ∀ entry ∈ headerEntries header, ThirdParty entry.1 → Passes baggage header entry) := by
  refine ⟨fitting.sameEntries_iff iteration, length_encodeDictionary_le iteration d,
    fun h entry hentry hparty => passes_of_kept h hentry hparty, ?_⟩
  intro h iteration entry hentry hparty
  exact (h entry hentry hparty).kept hparty iteration

/-- A key with a space. -/
def exampleDictionary : FittingDictionary where
  dictionary := (∅ : NSDictionary String).insert "a b" "c"
  nonempty := by decide
  fits := by decide +kernel

/-- The key comes back with its escape. -/
theorem key_is_not_decoded :
    exampleDictionary.dictionary.objectForKey "a b" = some "c" ∧
      (decode (encodeDictionary ⟨pairs, fun _ => List.Perm.refl _⟩
        exampleDictionary.dictionary)).objectForKey "a b" = none := by
  decide +kernel

end SentryCocoa.Baggage
