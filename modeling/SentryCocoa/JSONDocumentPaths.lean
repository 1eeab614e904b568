import SentryCocoa.JSONDocuments

/-! Documents whose leaves are looked at together with their place. The place of a leaf is its
name, and the names of the containers around it from the outermost one on. -/
namespace SentryCocoa.JSONCodec

variable {δ : Type}

namespace Document

mutual

def mapAt (f : List Bytes → Option Bytes → Leaf δ → Leaf δ) (names : List Bytes)
    (name : Option Bytes) : Document δ → Document δ
  | .leaf value => .leaf (f names name value)
  | .array values => .array (mapValuesAt f (names ++ [name.getD []]) values)
  | .object entries => .object (mapEntriesAt f (names ++ [name.getD []]) entries)

def mapValuesAt (f : List Bytes → Option Bytes → Leaf δ → Leaf δ) (names : List Bytes) :
    List (Document δ) → List (Document δ)
  | [] => []
  | value :: rest => value.mapAt f names none :: mapValuesAt f names rest

def mapEntriesAt (f : List Bytes → Option Bytes → Leaf δ → Leaf δ) (names : List Bytes) :
    List (PlainString × Document δ) → List (PlainString × Document δ)
  | [] => []
  | (key, value) :: rest =>
    (key, value.mapAt f names (some key.bytes)) :: mapEntriesAt f names rest

end

mutual

def AllAt (p : List Bytes → Option Bytes → Leaf δ → Prop) (names : List Bytes)
    (name : Option Bytes) : Document δ → Prop
  | .leaf value => p names name value
  | .array values => AllValuesAt p (names ++ [name.getD []]) values
  | .object entries => AllEntriesAt p (names ++ [name.getD []]) entries

def AllValuesAt (p : List Bytes → Option Bytes → Leaf δ → Prop) (names : List Bytes) :
    List (Document δ) → Prop
  | [] => True
  | value :: rest => value.AllAt p names none ∧ AllValuesAt p names rest

def AllEntriesAt (p : List Bytes → Option Bytes → Leaf δ → Prop) (names : List Bytes) :
    List (PlainString × Document δ) → Prop
  | [] => True
  | (key, value) :: rest => value.AllAt p names (some key.bytes) ∧ AllEntriesAt p names rest

end

mutual

/-- The sum of the weights of the leaves. -/
def weightAt (weight : List Bytes → Option Bytes → Leaf δ → Nat) (names : List Bytes)
    (name : Option Bytes) : Document δ → Nat
  | .leaf value => weight names name value
  | .array values => valuesWeightAt weight (names ++ [name.getD []]) values
  | .object entries => entriesWeightAt weight (names ++ [name.getD []]) entries

def valuesWeightAt (weight : List Bytes → Option Bytes → Leaf δ → Nat) (names : List Bytes) :
    List (Document δ) → Nat
  | [] => 0
  | value :: rest => value.weightAt weight names none + valuesWeightAt weight names rest

def entriesWeightAt (weight : List Bytes → Option Bytes → Leaf δ → Nat) (names : List Bytes) :
    List (PlainString × Document δ) → Nat
  | [] => 0
  | (key, value) :: rest =>
    value.weightAt weight names (some key.bytes) + entriesWeightAt weight names rest

end

/-! What a change of the leaves keeps. -/

section

variable (f : List Bytes → Option Bytes → Leaf δ → Leaf δ)

theorem mapValuesAt_isEmpty (names : List Bytes) (values : List (Document δ)) :
    (mapValuesAt f names values).isEmpty = values.isEmpty := by
  cases values with
  | nil => rfl
  | cons value rest => rfl

theorem mapEntriesAt_isEmpty (names : List Bytes) (entries : List (PlainString × Document δ)) :
    (mapEntriesAt f names entries).isEmpty = entries.isEmpty := by
  cases entries with
  | nil => rfl
  | cons entry rest => rfl

mutual

theorem depth_mapAt (names : List Bytes) (name : Option Bytes) (document : Document δ) :
    (document.mapAt f names name).depth = document.depth := by
  cases document with
  | leaf value => rfl
  | array values => rw [mapAt, depth, depth, depth_mapValuesAt]
  | object entries => rw [mapAt, depth, depth, depth_mapEntriesAt]

theorem depth_mapValuesAt (names : List Bytes) (values : List (Document δ)) :
    valuesDepth (mapValuesAt f names values) = valuesDepth values := by
  cases values with
  | nil => rfl
  | cons value rest => rw [mapValuesAt, valuesDepth, valuesDepth, depth_mapAt, depth_mapValuesAt]

theorem depth_mapEntriesAt (names : List Bytes) (entries : List (PlainString × Document δ)) :
    entriesDepth (mapEntriesAt f names entries) = entriesDepth entries := by
  cases entries with
  | nil => rfl
  | cons entry rest =>
    rw [mapEntriesAt, entriesDepth, entriesDepth, depth_mapAt, depth_mapEntriesAt]

end

/-- A leaf that the decoder has room for stays one. -/
def KeepsRoom (stringBufferLength : Nat) : Prop :=
  ∀ names name value, value.fits stringBufferLength = true →
    (f names name value).fits stringBufferLength = true

mutual

theorem fits_mapAt {buffers : DecodeBuffers} (hf : KeepsRoom f buffers.stringBufferLength)
    (names : List Bytes) (name : Option Bytes) {document : Document δ}
    (h : document.fits buffers = true) : (document.mapAt f names name).fits buffers = true := by
  cases document with
  | leaf value => exact hf names name value h
  | array values => exact fits_mapValuesAt hf _ h
  | object entries => exact fits_mapEntriesAt hf _ h

theorem fits_mapValuesAt {buffers : DecodeBuffers} (hf : KeepsRoom f buffers.stringBufferLength)
    (names : List Bytes) {values : List (Document δ)} (h : valuesFit buffers values = true) :
    valuesFit buffers (mapValuesAt f names values) = true := by
  cases values with
  | nil => rfl
  | cons value rest =>
    rw [valuesFit, Bool.and_eq_true] at h
    rw [mapValuesAt, valuesFit, fits_mapAt hf names none h.1, fits_mapValuesAt hf names h.2]
    rfl

theorem fits_mapEntriesAt {buffers : DecodeBuffers} (hf : KeepsRoom f buffers.stringBufferLength)
    (names : List Bytes) {entries : List (PlainString × Document δ)}
    (h : entriesFit buffers entries = true) :
    entriesFit buffers (mapEntriesAt f names entries) = true := by
  cases entries with
  | nil => rfl
  | cons entry rest =>
    obtain ⟨key, value⟩ := entry
    rw [entriesFit, Bool.and_eq_true, Bool.and_eq_true] at h
    rw [mapEntriesAt, entriesFit, h.1.1, fits_mapAt hf names (some key.bytes) h.1.2,
      fits_mapEntriesAt hf names h.2]
    rfl

end

/-- A leaf with the first property becomes one with the second. -/
def Takes (p q : Leaf δ → Prop) : Prop := ∀ names name value, p value → q (f names name value)

mutual

theorem all_mapAt {p q : Leaf δ → Prop} (hf : Takes f p q) (names : List Bytes)
    (name : Option Bytes) {document : Document δ} (h : document.All p) :
    (document.mapAt f names name).All q := by
  cases document with
  | leaf value => exact hf names name value h
  | array values => exact all_mapValuesAt hf _ h
  | object entries => exact all_mapEntriesAt hf _ h

theorem all_mapValuesAt {p q : Leaf δ → Prop} (hf : Takes f p q) (names : List Bytes)
    {values : List (Document δ)} (h : AllValues p values) :
    AllValues q (mapValuesAt f names values) := by
  cases values with
  | nil => exact trivial
  | cons value rest => exact ⟨all_mapAt hf names none h.1, all_mapValuesAt hf names h.2⟩

theorem all_mapEntriesAt {p q : Leaf δ → Prop} (hf : Takes f p q) (names : List Bytes)
    {entries : List (PlainString × Document δ)} (h : AllEntries p entries) :
    AllEntries q (mapEntriesAt f names entries) := by
  cases entries with
  | nil => exact trivial
  | cons entry rest =>
    exact ⟨all_mapAt hf names (some entry.1.bytes) h.1, all_mapEntriesAt hf names h.2⟩

end

section

variable (doubles : Doubles δ) (prettyPrint : Bool)
  {weight : List Bytes → Option Bytes → Leaf δ → Nat}

/-- The text of a leaf is longer by no more than its weight. -/
def GrowsBy (f : List Bytes → Option Bytes → Leaf δ → Leaf δ)
    (weight : List Bytes → Option Bytes → Leaf δ → Nat) (names : List Bytes)
    (name : Option Bytes) (value : Leaf δ) : Prop :=
  ((f names name value).text doubles).length ≤ (value.text doubles).length + weight names name value

mutual

theorem text_mapAt_length (names : List Bytes) (name : Option Bytes) {document : Document δ}
    (h : document.AllAt (GrowsBy doubles f weight) names name) (level : Nat) :
    ((document.mapAt f names name).text doubles prettyPrint level).length ≤
      (document.text doubles prettyPrint level).length + document.weightAt weight names name := by
  cases document with
  | leaf value => exact h
  | array values =>
    have hvalues := text_mapValuesAt_length (names ++ [name.getD []]) h (level + 1) true
    rw [mapAt, Document.text, Document.text, weightAt, mapValuesAt_isEmpty]
    simp only [List.length_append]
    omega
  | object entries =>
    have hentries := text_mapEntriesAt_length (names ++ [name.getD []]) h (level + 1) true
    rw [mapAt, Document.text, Document.text, weightAt, mapEntriesAt_isEmpty]
    simp only [List.length_append]
    omega

theorem text_mapValuesAt_length (names : List Bytes) {values : List (Document δ)}
    (h : AllValuesAt (GrowsBy doubles f weight) names values) (level : Nat) (first : Bool) :
    (valuesText doubles prettyPrint level first (mapValuesAt f names values)).length ≤
      (valuesText doubles prettyPrint level first values).length +
        valuesWeightAt weight names values := by
  cases values with
  | nil => exact Nat.le_refl _
  | cons value rest =>
    have hvalue := text_mapAt_length names none h.1 level
    have hrest := text_mapValuesAt_length names h.2 level false
    rw [mapValuesAt, valuesText, valuesText, valuesWeightAt]
    simp only [List.length_append]
    omega

theorem text_mapEntriesAt_length (names : List Bytes)
    {entries : List (PlainString × Document δ)}
    (h : AllEntriesAt (GrowsBy doubles f weight) names entries) (level : Nat) (first : Bool) :
    (entriesText doubles prettyPrint level first (mapEntriesAt f names entries)).length ≤
      (entriesText doubles prettyPrint level first entries).length +
        entriesWeightAt weight names entries := by
  cases entries with
  | nil => exact Nat.le_refl _
  | cons entry rest =>
    obtain ⟨key, value⟩ := entry
    have hvalue := text_mapAt_length names (some key.bytes) h.1 level
    have hrest := text_mapEntriesAt_length names h.2 level false
    rw [mapEntriesAt, entriesText, entriesText, entriesWeightAt]
    simp only [List.length_append]
    omega

end

end

end

mutual

theorem mapAt_eq_self {f : List Bytes → Option Bytes → Leaf δ → Leaf δ} {names : List Bytes}
    {name : Option Bytes} {document : Document δ}
    (h : document.AllAt (fun names name value => f names name value = value) names name) :
    document.mapAt f names name = document := by
  cases document with
  | leaf value => exact congrArg Document.leaf h
  | array values => rw [mapAt, mapValuesAt_eq_self h]
  | object entries => rw [mapAt, mapEntriesAt_eq_self h]

theorem mapValuesAt_eq_self {f : List Bytes → Option Bytes → Leaf δ → Leaf δ}
    {names : List Bytes} {values : List (Document δ)}
    (h : AllValuesAt (fun names name value => f names name value = value) names values) :
    mapValuesAt f names values = values := by
  cases values with
  | nil => rfl
  | cons value rest => rw [mapValuesAt, mapAt_eq_self h.1, mapValuesAt_eq_self h.2]

theorem mapEntriesAt_eq_self {f : List Bytes → Option Bytes → Leaf δ → Leaf δ}
    {names : List Bytes} {entries : List (PlainString × Document δ)}
    (h : AllEntriesAt (fun names name value => f names name value = value) names entries) :
    mapEntriesAt f names entries = entries := by
  cases entries with
  | nil => rfl
  | cons entry rest => rw [mapEntriesAt, mapAt_eq_self h.1, mapEntriesAt_eq_self h.2]

end

/-! A change that does not look at the place. -/

mutual

theorem mapAt_const (f : Leaf δ → Leaf δ) (names : List Bytes) (name : Option Bytes)
    (document : Document δ) : document.mapAt (fun _ _ => f) names name = document.map f := by
  cases document with
  | leaf value => rfl
  | array values => rw [mapAt, map, mapValuesAt_const]
  | object entries => rw [mapAt, map, mapEntriesAt_const]

theorem mapValuesAt_const (f : Leaf δ → Leaf δ) (names : List Bytes)
    (values : List (Document δ)) :
    mapValuesAt (fun _ _ => f) names values = mapValues f values := by
  cases values with
  | nil => rfl
  | cons value rest => rw [mapValuesAt, mapValues, mapAt_const, mapValuesAt_const]

theorem mapEntriesAt_const (f : Leaf δ → Leaf δ) (names : List Bytes)
    (entries : List (PlainString × Document δ)) :
    mapEntriesAt (fun _ _ => f) names entries = mapEntries f entries := by
  cases entries with
  | nil => rfl
  | cons entry rest => rw [mapEntriesAt, mapEntries, mapAt_const, mapEntriesAt_const]

end

/-! What holds of all places that go on from the one of the document. -/

section

variable {within : List Bytes → Prop}

mutual

theorem allAt_of_all {p : List Bytes → Option Bytes → Leaf δ → Prop} {q : Leaf δ → Prop}
    (hwithin : ∀ path name, within path → within (path ++ [name]))
    (hleaf : ∀ names name value, within (names ++ [name.getD []]) → q value →
      p names name value)
    {names : List Bytes} {name : Option Bytes} {document : Document δ}
    (hplace : within (names ++ [name.getD []])) (h : document.All q) :
    document.AllAt p names name := by
  cases document with
  | leaf value => exact hleaf names name value hplace h
  | array values => exact allValuesAt_of_all hwithin hleaf hplace h
  | object entries => exact allEntriesAt_of_all hwithin hleaf hplace h

theorem allValuesAt_of_all {p : List Bytes → Option Bytes → Leaf δ → Prop} {q : Leaf δ → Prop}
    (hwithin : ∀ path name, within path → within (path ++ [name]))
    (hleaf : ∀ names name value, within (names ++ [name.getD []]) → q value →
      p names name value)
    {names : List Bytes} {values : List (Document δ)} (hplace : within names)
    (h : AllValues q values) : AllValuesAt p names values := by
  cases values with
  | nil => exact trivial
  | cons value rest =>
    exact ⟨allAt_of_all hwithin hleaf (hwithin names _ hplace) h.1,
      allValuesAt_of_all hwithin hleaf hplace h.2⟩

theorem allEntriesAt_of_all {p : List Bytes → Option Bytes → Leaf δ → Prop} {q : Leaf δ → Prop}
    (hwithin : ∀ path name, within path → within (path ++ [name]))
    (hleaf : ∀ names name value, within (names ++ [name.getD []]) → q value →
      p names name value)
    {names : List Bytes} {entries : List (PlainString × Document δ)} (hplace : within names)
    (h : AllEntries q entries) : AllEntriesAt p names entries := by
  cases entries with
  | nil => exact trivial
  | cons entry rest =>
    exact ⟨allAt_of_all hwithin hleaf (hwithin names _ hplace) h.1,
      allEntriesAt_of_all hwithin hleaf hplace h.2⟩

end

mutual

theorem weightAt_eq_zero {weight : List Bytes → Option Bytes → Leaf δ → Nat}
    (hwithin : ∀ path name, within path → within (path ++ [name]))
    (hleaf : ∀ names name value, within (names ++ [name.getD []]) → weight names name value = 0)
    {names : List Bytes} {name : Option Bytes} (document : Document δ)
    (hplace : within (names ++ [name.getD []])) : document.weightAt weight names name = 0 := by
  cases document with
  | leaf value => exact hleaf names name value hplace
  | array values => exact valuesWeightAt_eq_zero hwithin hleaf values hplace
  | object entries => exact entriesWeightAt_eq_zero hwithin hleaf entries hplace

theorem valuesWeightAt_eq_zero {weight : List Bytes → Option Bytes → Leaf δ → Nat}
    (hwithin : ∀ path name, within path → within (path ++ [name]))
    (hleaf : ∀ names name value, within (names ++ [name.getD []]) → weight names name value = 0)
    {names : List Bytes} (values : List (Document δ)) (hplace : within names) :
    valuesWeightAt weight names values = 0 := by
  cases values with
  | nil => rfl
  | cons value rest =>
    rw [valuesWeightAt, weightAt_eq_zero hwithin hleaf value (hwithin names _ hplace),
      valuesWeightAt_eq_zero hwithin hleaf rest hplace]

theorem entriesWeightAt_eq_zero {weight : List Bytes → Option Bytes → Leaf δ → Nat}
    (hwithin : ∀ path name, within path → within (path ++ [name]))
    (hleaf : ∀ names name value, within (names ++ [name.getD []]) → weight names name value = 0)
    {names : List Bytes} (entries : List (PlainString × Document δ)) (hplace : within names) :
    entriesWeightAt weight names entries = 0 := by
  cases entries with
  | nil => rfl
  | cons entry rest =>
    rw [entriesWeightAt, weightAt_eq_zero hwithin hleaf entry.2 (hwithin names _ hplace),
      entriesWeightAt_eq_zero hwithin hleaf rest hplace]

end

end

theorem allAt_of_forall {p : List Bytes → Option Bytes → Leaf δ → Prop} {q : Leaf δ → Prop}
    (hleaf : ∀ names name value, q value → p names name value) (names : List Bytes)
    (name : Option Bytes) {document : Document δ} (h : document.All q) :
    document.AllAt p names name :=
  @allAt_of_all _ (fun _ => True) _ _ (fun _ _ _ => trivial)
    (fun names name value _ => hleaf names name value) _ _ _ trivial h

theorem all_mono {p q : Leaf δ → Prop} (hleaf : ∀ value, p value → q value)
    {document : Document δ} (h : document.All p) : document.All q := by
  have hsame : document.mapAt (fun _ _ value => value) [] none = document :=
    mapAt_eq_self (allAt_of_forall (fun _ _ _ _ => rfl) [] none h)
  rw [← hsame]
  exact all_mapAt _ (fun _ _ => hleaf) [] none h

mutual

theorem all_of_forall {p : Leaf δ → Prop} (h : ∀ value, p value) (document : Document δ) :
    document.All p := by
  cases document with
  | leaf value => exact h value
  | array values => exact allValues_of_forall h values
  | object entries => exact allEntries_of_forall h entries

theorem allValues_of_forall {p : Leaf δ → Prop} (h : ∀ value, p value)
    (values : List (Document δ)) : AllValues p values := by
  cases values with
  | nil => exact trivial
  | cons value rest => exact ⟨all_of_forall h value, allValues_of_forall h rest⟩

theorem allEntries_of_forall {p : Leaf δ → Prop} (h : ∀ value, p value)
    (entries : List (PlainString × Document δ)) : AllEntries p entries := by
  cases entries with
  | nil => exact trivial
  | cons entry rest => exact ⟨all_of_forall h entry.2, allEntries_of_forall h rest⟩

end

/-! Entries as a list. -/

theorem fits_of_mem {buffers : DecodeBuffers} {entry : PlainString × Document δ}
    {entries : List (PlainString × Document δ)} (h : entriesFit buffers entries = true)
    (hentry : entry ∈ entries) : entry.2.fits buffers = true := by
  induction entries with
  | nil => cases hentry
  | cons other rest ih =>
    obtain ⟨key, value⟩ := other
    rw [entriesFit, Bool.and_eq_true, Bool.and_eq_true] at h
    rcases List.mem_cons.mp hentry with rfl | hrest
    · exact h.1.2
    · exact ih h.2 hrest

theorem lineBreak_length (level : Nat) : (lineBreak true level).length = 4 * level + 1 := by
  simp [lineBreak, ascii, Nat.mul_comm]

/-- What an entry takes on a line of its own, its value left out. -/
theorem entriesText_length_ge (doubles : Doubles δ) (level : Nat) (first : Bool)
    (entries : List (PlainString × Document δ)) :
    (entries.map fun entry => 4 * level + 5 + (escape entry.1.bytes).length).sum ≤
      (entriesText doubles true level first entries).length := by
  induction entries generalizing first with
  | nil => exact Nat.zero_le _
  | cons entry rest ih =>
    have hbreak := lineBreak_length level
    have hquote : (ascii "\"").length = 1 := by decide
    have hcolon : (colon true).length = 2 := by decide
    have hrest := ih false
    rw [List.map_cons, List.sum_cons, entriesText, separator, quoted]
    simp only [List.length_append]
    omega

theorem length_le_entriesText (doubles : Doubles δ) (prettyPrint : Bool) (level : Nat)
    (first : Bool) {entry : PlainString × Document δ}
    {entries : List (PlainString × Document δ)} (h : entry ∈ entries) :
    (entry.2.text doubles prettyPrint level).length ≤
      (entriesText doubles prettyPrint level first entries).length := by
  induction entries generalizing first with
  | nil => cases h
  | cons other rest ih =>
    rw [entriesText]
    simp only [List.length_append]
    rcases List.mem_cons.mp h with rfl | hrest
    · omega
    · have := ih false hrest
      omega

theorem mapEntries_eq (f : Leaf δ → Leaf δ) (entries : List (PlainString × Document δ)) :
    mapEntries f entries = entries.map fun entry => (entry.1, entry.2.map f) := by
  induction entries with
  | nil => rfl
  | cons entry rest ih => rw [mapEntries, ih, List.map_cons]

theorem allEntriesAt_iff (p : List Bytes → Option Bytes → Leaf δ → Prop) (names : List Bytes)
    (entries : List (PlainString × Document δ)) :
    AllEntriesAt p names entries ↔
      ∀ entry ∈ entries, entry.2.AllAt p names (some entry.1.bytes) := by
  induction entries with
  | nil => simp [AllEntriesAt]
  | cons entry rest ih => rw [AllEntriesAt, ih, List.forall_mem_cons]

theorem entriesWeightAt_eq (weight : List Bytes → Option Bytes → Leaf δ → Nat)
    (names : List Bytes) (entries : List (PlainString × Document δ)) :
    entriesWeightAt weight names entries =
      (entries.map fun entry => entry.2.weightAt weight names (some entry.1.bytes)).sum := by
  induction entries with
  | nil => rfl
  | cons entry rest ih => rw [entriesWeightAt, ih, List.map_cons, List.sum_cons]

theorem entriesWeightAt_append (weight : List Bytes → Option Bytes → Leaf δ → Nat)
    (names : List Bytes) (first second : List (PlainString × Document δ)) :
    entriesWeightAt weight names (first ++ second) =
      entriesWeightAt weight names first + entriesWeightAt weight names second := by
  rw [entriesWeightAt_eq, entriesWeightAt_eq, entriesWeightAt_eq, List.map_append,
    List.sum_append]

theorem entriesWeightAt_take (weight : List Bytes → Option Bytes → Leaf δ → Nat)
    (names : List Bytes) (count : Nat) (entries : List (PlainString × Document δ)) :
    entriesWeightAt weight names (entries.take count) ≤ entriesWeightAt weight names entries := by
  have hsplit := entriesWeightAt_append weight names (entries.take count) (entries.drop count)
  rw [List.take_append_drop] at hsplit
  omega

end Document

end SentryCocoa.JSONCodec
