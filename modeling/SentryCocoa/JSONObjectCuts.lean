import SentryCocoa.JSONObjectRuns

/-! The object of a document that is cut. The decoder has a place for the object as soon as it
begins, so the start of a report gives the start of its object: all fields that end in it, and of
the next one what there is. -/
namespace SentryCocoa.JSONObjects
open SentryCocoa.JSONCodec SentryCocoa.Library.Simulation

variable {δ : Type}

/-! ### Documents that are cut -/

mutual

/-- Containers end early, in the last of their elements or behind it. A leaf is there or not. -/
def IsCutOf (cut : Document δ) : Document δ → Prop
  | .leaf value => cut = .leaf value
  | .array values => ∃ cutValues, cut = .array cutValues ∧ AreCutOf cutValues values
  | .object entries => ∃ cutEntries, cut = .object cutEntries ∧ EntriesCutOf cutEntries entries

def AreCutOf (cut : List (Document δ)) : List (Document δ) → Prop
  | [] => cut = []
  | value :: rest => cut = [] ∨ (∃ last, cut = [last] ∧ IsCutOf last value) ∨
    ∃ later, cut = value :: later ∧ AreCutOf later rest

def EntriesCutOf (cut : List (PlainString × Document δ)) : List (PlainString × Document δ) → Prop
  | [] => cut = []
  | (key, value) :: rest => cut = [] ∨ (∃ last, cut = [(key, last)] ∧ IsCutOf last value) ∨
    ∃ later, cut = (key, value) :: later ∧ EntriesCutOf later rest

end

theorem areCutOf_self (values : List (Document δ)) : AreCutOf values values := by
  induction values with
  | nil => exact rfl
  | cons value rest ih => exact Or.inr (Or.inr ⟨rest, rfl, ih⟩)

theorem entriesCutOf_self (entries : List (PlainString × Document δ)) :
    EntriesCutOf entries entries := by
  induction entries with
  | nil => exact rfl
  | cons entry rest ih => exact Or.inr (Or.inr ⟨rest, rfl, ih⟩)

mutual

theorem isUTF8_of_isCutOf {cut document : Document δ} (hcut : IsCutOf cut document)
    (h : isUTF8 document = true) : isUTF8 cut = true := by
  cases document with
  | leaf value =>
    cases hcut
    exact h
  | array values =>
    obtain ⟨cutValues, rfl, hvalues⟩ := hcut
    exact areUTF8_of_areCutOf hvalues h
  | object entries =>
    obtain ⟨cutEntries, rfl, hentries⟩ := hcut
    exact entriesUTF8_of_entriesCutOf hentries h

theorem areUTF8_of_areCutOf {cut values : List (Document δ)} (hcut : AreCutOf cut values)
    (h : areUTF8 values = true) : areUTF8 cut = true := by
  cases values with
  | nil =>
    cases hcut
    rfl
  | cons value rest =>
    obtain ⟨hvalue, hrest⟩ := Bool.and_eq_true_iff.mp h
    rcases hcut with rfl | ⟨last, rfl, hlast⟩ | ⟨later, rfl, hlater⟩
    · rfl
    · exact Bool.and_eq_true_iff.mpr ⟨isUTF8_of_isCutOf hlast hvalue, rfl⟩
    · exact Bool.and_eq_true_iff.mpr ⟨hvalue, areUTF8_of_areCutOf hlater hrest⟩

theorem entriesUTF8_of_entriesCutOf {cut entries : List (PlainString × Document δ)}
    (hcut : EntriesCutOf cut entries) (h : entriesUTF8 entries = true) :
    entriesUTF8 cut = true := by
  cases entries with
  | nil =>
    cases hcut
    rfl
  | cons entry rest =>
    obtain ⟨key, value⟩ := entry
    obtain ⟨hfirst, hrest⟩ := Bool.and_eq_true_iff.mp h
    obtain ⟨hkey, hvalue⟩ := Bool.and_eq_true_iff.mp hfirst
    rcases hcut with rfl | ⟨last, rfl, hlast⟩ | ⟨later, rfl, hlater⟩
    · rfl
    · exact Bool.and_eq_true_iff.mpr
        ⟨Bool.and_eq_true_iff.mpr ⟨hkey, isUTF8_of_isCutOf hlast hvalue⟩, rfl⟩
    · exact Bool.and_eq_true_iff.mpr ⟨hfirst, entriesUTF8_of_entriesCutOf hlater hrest⟩

end

/-- The ends of containers that are missing. -/
def ends (δ : Type) (count : Nat) : List (Option Bytes × Event δ) :=
  List.replicate count (none, .endContainer)

/-- The first events of a container are all of them, or come from its elements. -/
theorem prefix_container {begins : Option Bytes × Event δ}
    {events first : List (Option Bytes × Event δ)}
    (h : first <+: begins :: (events ++ [(none, .endContainer)])) :
    first = [] ∨ first = begins :: (events ++ [(none, .endContainer)]) ∨
      ∃ inner, first = begins :: inner ∧ inner <+: events := by
  cases first with
  | nil => exact Or.inl rfl
  | cons head inner =>
    obtain ⟨rfl, hinner⟩ := List.cons_prefix_cons.mp h
    rcases List.prefix_concat_iff.mp hinner with heq | hevents
    · exact Or.inr (Or.inl (congrArg _ heq))
    · exact Or.inr (Or.inr ⟨inner, rfl, hevents⟩)

theorem container_ends (begins : Option Bytes × Event δ)
    (inner : List (Option Bytes × Event δ)) (count : Nat) :
    begins :: ((inner ++ ends δ count) ++ [(none, .endContainer)]) =
      (begins :: inner) ++ ends δ (count + 1) := by
  unfold ends
  rw [List.replicate_succ', List.append_assoc, List.cons_append]

/-- The first events of elements are those of the first elements, and of a part of the next one. -/
theorem prefix_elements {events rest first : List (Option Bytes × Event δ)}
    (h : first <+: events ++ rest) :
    first <+: events ∨ ∃ later, first = events ++ later ∧ later <+: rest := by
  rcases List.prefix_or_prefix_of_prefix h (List.prefix_append events rest) with hfirst | hevents
  · exact Or.inl hfirst
  · obtain ⟨later, rfl⟩ := hevents
    exact Or.inr ⟨later, rfl, (List.prefix_append_right_inj events).mp h⟩

mutual

/-- The first events of a document are those of a cut of it, but for the ends of containers. -/
theorem cut_of_document (document : Document δ) (name : Option Bytes)
    {first : List (Option Bytes × Event δ)} (h : first <+: document.events name) :
    first = [] ∨ ∃ cut count, IsCutOf cut document ∧ cut.events name = first ++ ends δ count := by
  cases document with
  | leaf value =>
    rcases List.prefix_cons_iff.mp h with rfl | ⟨later, rfl, hlater⟩
    · exact Or.inl rfl
    · cases List.prefix_nil.mp hlater
      exact Or.inr ⟨.leaf value, 0, rfl, rfl⟩
  | array values =>
    rcases prefix_container h with rfl | rfl | ⟨inner, rfl, hinner⟩
    · exact Or.inl rfl
    · exact Or.inr ⟨.array values, 0, ⟨values, rfl, areCutOf_self values⟩, (List.append_nil _).symm⟩
    · obtain ⟨cut, count, hcut, hevents⟩ := cut_of_values values hinner
      refine Or.inr ⟨.array cut, count + 1, ⟨cut, rfl, hcut⟩, ?_⟩
      rw [Document.events, hevents, container_ends]
  | object entries =>
    rcases prefix_container h with rfl | rfl | ⟨inner, rfl, hinner⟩
    · exact Or.inl rfl
    · exact Or.inr ⟨.object entries, 0, ⟨entries, rfl, entriesCutOf_self entries⟩,
        (List.append_nil _).symm⟩
    · obtain ⟨cut, count, hcut, hevents⟩ := cut_of_entries entries hinner
      refine Or.inr ⟨.object cut, count + 1, ⟨cut, rfl, hcut⟩, ?_⟩
      rw [Document.events, hevents, container_ends]

theorem cut_of_values (values : List (Document δ)) {first : List (Option Bytes × Event δ)}
    (h : first <+: Document.valuesEvents values) :
    ∃ cut count, AreCutOf cut values ∧ Document.valuesEvents cut = first ++ ends δ count := by
  cases values with
  | nil =>
    cases List.prefix_nil.mp h
    exact ⟨[], 0, rfl, rfl⟩
  | cons value rest =>
    rcases prefix_elements h with hvalue | ⟨later, rfl, hlater⟩
    · rcases cut_of_document value none hvalue with rfl | ⟨last, count, hlast, hevents⟩
      · exact ⟨[], 0, Or.inl rfl, rfl⟩
      · refine ⟨[last], count, Or.inr (Or.inl ⟨last, rfl, hlast⟩), ?_⟩
        rw [Document.valuesEvents, hevents]
        exact List.append_nil _
    · obtain ⟨cut, count, hcut, hevents⟩ := cut_of_values rest hlater
      refine ⟨value :: cut, count, Or.inr (Or.inr ⟨cut, rfl, hcut⟩), ?_⟩
      rw [Document.valuesEvents, hevents, List.append_assoc]

theorem cut_of_entries (entries : List (PlainString × Document δ))
    {first : List (Option Bytes × Event δ)} (h : first <+: Document.entriesEvents entries) :
    ∃ cut count, EntriesCutOf cut entries ∧
      Document.entriesEvents cut = first ++ ends δ count := by
  cases entries with
  | nil =>
    cases List.prefix_nil.mp h
    exact ⟨[], 0, rfl, rfl⟩
  | cons entry rest =>
    obtain ⟨key, value⟩ := entry
    rcases prefix_elements h with hvalue | ⟨later, rfl, hlater⟩
    · rcases cut_of_document value (some key.bytes) hvalue with
        rfl | ⟨last, count, hlast, hevents⟩
      · exact ⟨[], 0, Or.inl rfl, rfl⟩
      · refine ⟨[(key, last)], count, Or.inr (Or.inl ⟨last, rfl, hlast⟩), ?_⟩
        rw [Document.entriesEvents, hevents]
        exact List.append_nil _
    · obtain ⟨cut, count, hcut, hevents⟩ := cut_of_entries rest hlater
      refine ⟨(key, value) :: cut, count, Or.inr (Or.inr ⟨cut, rfl, hcut⟩), ?_⟩
      rw [Document.entriesEvents, hevents, List.append_assoc]

end

/-! ### The callbacks of a document that is cut -/

section Callbacks

variable {options : DecodeOptions} {codec codec' : Codec δ}

/-- The objects that were made are the same. -/
structure SameObjects (codec codec' : Codec δ) : Prop where
  containers : codec'.containers = codec.containers
  top : codec'.topLevelContainer = codec.topLevelContainer
  error : codec'.error = codec.error
  isRaised : codec'.isRaised = codec.isRaised

theorem sameObjects_onEndContainer (h : onEndContainer codec = .ok () codec') :
    SameObjects codec codec' := by
  unfold onEndContainer at h
  have hget : (get : EStateM JSONError (Codec δ) (Codec δ)) codec = .ok codec codec := rfl
  rw [run_bind_ok hget] at h
  cases hstack : codec.containerStack with
  | nil =>
    rw [hstack] at h
    cases h
  | cons index below =>
    rw [hstack] at h
    cases h
    exact ⟨rfl, rfl, rfl, rfl⟩

/-- The ends of containers make nothing. -/
theorem run_before_ends (events : List (Option Bytes × Event δ)) (count : Nat)
    (h : runEvents options (events ++ ends δ count) codec = .ok () codec') :
    ∃ before, runEvents options events codec = .ok () before ∧ SameObjects before codec' := by
  induction count generalizing codec' with
  | zero =>
    rw [ends, List.replicate_zero, List.append_nil] at h
    exact ⟨codec', h, rfl, rfl, rfl, rfl⟩
  | succ count ih =>
    have hends : events ++ ends δ (count + 1) =
        (events ++ ends δ count) ++ [(none, .endContainer)] := by
      rw [ends, List.replicate_succ', List.append_assoc, ends]
    rw [hends, runEvents_concat] at h
    obtain ⟨_, between, hbetween, hend⟩ := run_bind_eq_ok_iff.mp h
    obtain ⟨before, hbefore, hsame⟩ := ih hbetween
    obtain ⟨_, after, hafter, hnothing⟩ := run_bind_eq_ok_iff.mp hend
    cases hnothing
    have hlast := sameObjects_onEndContainer hafter
    exact ⟨before, hbefore, hlast.containers.trans hsame.containers, hlast.top.trans hsame.top,
      hlast.error.trans hsame.error, hlast.isRaised.trans hsame.isRaised⟩

end Callbacks

/-! ### The events of a document that is cut -/

section Events

variable (doubles : Doubles δ) {buffers : DecodeBuffers}

theorem entriesText_cons (prettyPrint : Bool) (level : Nat) (key : PlainString)
    (value : Document δ) (more : List (PlainString × Document δ)) :
    Document.entriesText doubles prettyPrint level true ((key, value) :: more) =
      lineBreak prettyPrint level ++ (quoted key.bytes ++ (colon prettyPrint ++
        (value.text doubles prettyPrint level ++
          Document.entriesText doubles prettyPrint level false more))) := by
  rw [Document.entriesText, List.append_assoc, List.append_assoc, List.append_assoc]
  rfl

theorem skipWhitespace_entries (prettyPrint : Bool) (level : Nat) (key : PlainString)
    (value : Document δ) (more : List (PlainString × Document δ)) (tail : Bytes) :
    skipWhitespace
        (Document.entriesText doubles prettyPrint level true ((key, value) :: more) ++ tail) =
      quoted key.bytes ++ (colon prettyPrint ++ (value.text doubles prettyPrint level ++
        (Document.entriesText doubles prettyPrint level false more ++ tail))) := by
  rw [entriesText_cons, List.append_assoc, List.append_assoc, List.append_assoc,
    List.append_assoc]
  exact skipWhitespace_append (all_isspace_lineBreak _ _) (by decide) _

/-- Behind other fields there is a separator too. -/
theorem entriesText_first_length (prettyPrint : Bool) (level : Nat)
    (entries : List (PlainString × Document δ)) :
    (Document.entriesText doubles prettyPrint level true entries).length ≤
      (Document.entriesText doubles prettyPrint level false entries).length := by
  cases entries with
  | nil => exact Nat.le_refl _
  | cons entry rest =>
    simp only [Document.entriesText, separator, List.length_append, if_true, List.length_nil]
    omega

theorem skipComma_entries (prettyPrint : Bool) (level : Nat)
    (entry : PlainString × Document δ) (rest : List (PlainString × Document δ)) (tail : Bytes) :
    skipComma (Document.entriesText doubles prettyPrint level false (entry :: rest) ++ tail) =
      .ok (Document.entriesText doubles prettyPrint level true (entry :: rest) ++ tail) := by
  simp only [Document.entriesText, separator, Bool.false_eq_true, if_false, if_true,
    List.append_assoc, List.nil_append]
  exact skipComma_comma _

theorem endsNumber_entries (prettyPrint : Bool) (level : Nat)
    (entries : List (PlainString × Document δ)) {tail : Bytes} (htail : EndsNumber tail) :
    EndsNumber (Document.entriesText doubles prettyPrint level false entries ++ tail) := by
  cases entries with
  | nil => exact htail
  | cons entry rest =>
    simp only [Document.entriesText, separator, Bool.false_eq_true, if_false, List.append_assoc]
    exact endsNumber_comma _

theorem quoted_length (bytes : Bytes) : 2 ≤ (quoted bytes).length := by
  have hmark : (ascii "\"").length = 1 := by decide
  simp only [quoted, List.length_append, hmark]
  omega

/-- Fields are read whatever follows them, if a number ends there. -/
theorem parse_openEntries (hbuffer : 50 ≤ buffers.stringBufferLength)
    (entries : List (PlainString × Document δ))
    (hprinted : Document.AllEntries (Leaf.Printed doubles) entries)
    (hfits : Document.entriesFit buffers entries = true) (prettyPrint : Bool) (level : Nat)
    {tail : Bytes} (htail : EndsNumber tail) (fuel : Nat)
    (hfuel : 2 * (Document.entriesText doubles prettyPrint level true entries).length + 1 < fuel) :
    Document.entriesEvents (Document.mapEntries (Leaf.readBack doubles) entries) <+:
      (parseObject doubles buffers Prod.mk fuel
        (Document.entriesText doubles prettyPrint level true entries ++ tail) ()).1.map
          Fired.pair := by
  induction entries generalizing fuel with
  | nil => exact List.nil_prefix
  | cons entry more ih =>
    obtain ⟨key, value⟩ := entry
    obtain ⟨fuel, rfl⟩ : ∃ n, fuel = n + 1 := ⟨fuel - 1, by omega⟩
    obtain ⟨hfirst, hmoreFits⟩ := Bool.and_eq_true_iff.mp hfits
    obtain ⟨hkey, hvalueFits⟩ := Bool.and_eq_true_iff.mp hfirst
    have hlonger := entriesText_first_length doubles prettyPrint level more
    have hquoted := quoted_length key.bytes
    rw [entriesText_cons] at hfuel
    simp only [List.length_append] at hfuel
    obtain ⟨c, start, hstart, hstarts⟩ := Document.text_starts doubles hprinted.1 prettyPrint level
    have hvalue := (Document.parse_document doubles buffers hbuffer value hprinted.1
      (some key.bytes) prettyPrint level _
      (Or.inr (endsNumber_entries doubles prettyPrint level more htail)) fuel (by omega)).readTo
        hvalueFits
    have hname := decodeName_quoted key (of_decide_eq_true hkey) prettyPrint hstarts.space hstart
      (Document.entriesText doubles prettyPrint level false more ++ tail)
    have hquote : ∀ rest, quoted key.bytes ++ rest =
        '"'.toUInt8 :: (escape key.bytes ++ ascii "\"" ++ rest) := fun rest => rfl
    rw [parseObject_succ, skipWhitespace_entries]
    rw [hquote] at hname ⊢
    dsimp only
    rw [if_neg (by decide), hname]
    dsimp only
    obtain ⟨hevents, hresult⟩ := hvalue
    cases hparse : parseElement doubles buffers Prod.mk fuel (some key.bytes)
        (value.text doubles prettyPrint level ++
          (Document.entriesText doubles prettyPrint level false more ++ tail)) () with
    | mk fired result =>
      rw [hparse] at hevents hresult
      dsimp only at hevents hresult
      subst hresult
      dsimp only
      rw [Document.mapEntries, Document.entriesEvents]
      cases more with
      | nil =>
        have hlast : Document.entriesEvents
            (Document.mapEntries (Leaf.readBack doubles) ([] : List (PlainString × Document δ))) =
              [] := rfl
        rw [hlast, List.append_nil]
        change (value.readBack doubles).events (some key.bytes) <+: _
        rw [← hevents]
        cases skipComma (Document.entriesText doubles prettyPrint level false [] ++ tail) with
        | error e => exact List.prefix_rfl
        | ok behind =>
          dsimp only
          rw [List.map_append]
          exact List.prefix_append _ _
      | cons next rest =>
        rw [skipComma_entries]
        dsimp only
        rw [List.map_append, hevents]
        refine (List.prefix_append_right_inj _).mpr ?_
        exact ih hprinted.2 hmoreFits fuel (by omega)

/-! Objects whose fields are split. -/

theorem mapEntries_append (f : Leaf δ → Leaf δ) (first later : List (PlainString × Document δ)) :
    Document.mapEntries f (first ++ later) =
      Document.mapEntries f first ++ Document.mapEntries f later := by
  induction first with
  | nil => rfl
  | cons entry rest ih =>
    rw [List.cons_append, Document.mapEntries, ih]
    rfl

theorem entriesEvents_append (first later : List (PlainString × Document δ)) :
    Document.entriesEvents (first ++ later) =
      Document.entriesEvents first ++ Document.entriesEvents later := by
  induction first with
  | nil => rfl
  | cons entry rest ih =>
    rw [List.cons_append, Document.entriesEvents, ih, ← List.append_assoc]
    rfl

theorem entriesText_append (prettyPrint : Bool) (level : Nat) (isFirst : Bool)
    (first later : List (PlainString × Document δ)) :
    Document.entriesText doubles prettyPrint level isFirst (first ++ later) =
      Document.entriesText doubles prettyPrint level isFirst first ++
        Document.entriesText doubles prettyPrint level (isFirst && first.isEmpty) later := by
  induction first generalizing isFirst with
  | nil =>
    rw [List.isEmpty_nil, Bool.and_true]
    rfl
  | cons entry rest ih =>
    rw [List.cons_append, Document.entriesText, ih, ← List.append_assoc, Bool.false_and,
      List.isEmpty_cons, Bool.and_false]
    rfl

theorem allEntries_of_append {p : Leaf δ → Prop} {first later : List (PlainString × Document δ)}
    (h : Document.AllEntries p (first ++ later)) : Document.AllEntries p first := by
  induction first with
  | nil => trivial
  | cons entry rest ih => exact ⟨h.1, ih h.2⟩

theorem entriesFit_of_append {first later : List (PlainString × Document δ)}
    (h : Document.entriesFit buffers (first ++ later) = true) :
    Document.entriesFit buffers first = true := by
  induction first with
  | nil => rfl
  | cons entry rest ih =>
    obtain ⟨hentry, hrest⟩ := Bool.and_eq_true_iff.mp h
    exact Bool.and_eq_true_iff.mpr ⟨hentry, ih hrest⟩

theorem entriesUTF8_append (first later : List (PlainString × Document δ)) :
    entriesUTF8 (first ++ later) = (entriesUTF8 first && entriesUTF8 later) := by
  induction first with
  | nil => rfl
  | cons entry rest ih =>
    rw [List.cons_append, entriesUTF8, ih, ← Bool.and_assoc]
    rfl

/-- No number goes on behind a field. -/
theorem endsNumber_later (prettyPrint isFirst : Bool) (level : Nat)
    (later : List (PlainString × Document δ)) {white : Bytes}
    (hwhite : white.all isspace = true) :
    EndsNumber (Document.entriesText doubles prettyPrint level isFirst later ++
      (white ++ ['\x7d'.toUInt8])) := by
  have hclose := endsNumber_end hwhite (c := '\x7d'.toUInt8) (by decide) []
  cases isFirst with
  | false => exact endsNumber_entries doubles prettyPrint level later hclose
  | true =>
    cases later with
    | nil => exact hclose
    | cons entry rest =>
      simp only [Document.entriesText, separator, List.append_assoc]
      exact endsNumber_end (all_isspace_lineBreak prettyPrint level) (by decide) _

/-- The buffers that the decoder for objects has for names and strings. -/
def objectBuffers : DecodeBuffers :=
  ⟨(maxStringBufferSize + 1) / 4, maxStringBufferSize + 1 - (maxStringBufferSize + 1) / 4⟩

theorem parse_wholeObject {entries : List (PlainString × Document δ)}
    (hprinted : (Document.object entries).All (Leaf.Printed doubles))
    (hfits : (Document.object entries).fits objectBuffers = true) (prettyPrint : Bool) :
    ReadTo (parseDocument doubles objectBuffers none
      ((Document.object entries).text doubles prettyPrint 0))
      (((Document.object entries).readBack doubles).events none) [] := by
  have hparse := Document.parse_document doubles objectBuffers (by decide) (.object entries)
    hprinted none prettyPrint 0 [] (Or.inl rfl)
    (decodeFuel ((Document.object entries).text doubles prettyPrint 0).length)
    (Nat.lt_succ_self _)
  rw [List.append_nil] at hparse
  exact hparse.readTo hfits

/-- The first fields of an object are read when one more byte follows them. -/
theorem parse_openObject {first : List (PlainString × Document δ)}
    (hprinted : Document.AllEntries (Leaf.Printed doubles) first)
    (hfits : Document.entriesFit objectBuffers first = true) (prettyPrint : Bool) {tail : Bytes}
    (htail : EndsNumber tail) :
    (none, .beginObject) ::
        Document.entriesEvents (Document.mapEntries (Leaf.readBack doubles) first) <+:
      (parseDocument doubles objectBuffers none
        ((ascii "\x7b" ++ Document.entriesText doubles prettyPrint 1 true first) ++ tail)).1.map
          Fired.pair := by
  have hskip : skipWhitespace
      ((ascii "\x7b" ++ Document.entriesText doubles prettyPrint 1 true first) ++ tail) =
        '\x7b'.toUInt8 :: (Document.entriesText doubles prettyPrint 1 true first ++ tail) := by
    rw [List.append_assoc]
    exact skipWhitespace_cons (by decide) _
  have hbrace : (ascii "\x7b").length = 1 := by decide
  have hopen := parse_openEntries doubles (by decide) first hprinted hfits prettyPrint 1 htail
    (2 * ((ascii "\x7b" ++ Document.entriesText doubles prettyPrint 1 true first) ++
      tail).length) (by
        rw [List.length_append, List.length_append, hbrace]
        omega)
  rw [parseDocument, decodeFuel, parseElement_succ, hskip]
  dsimp only
  rw [if_neg (by decide), if_pos rfl]
  exact List.cons_prefix_cons.mpr ⟨rfl, hopen⟩

/-- What is read of the start of an object are the events of the fields that end in it, and the
first of the others. -/
theorem parse_cutObject {first later : List (PlainString × Document δ)}
    (hprinted : (Document.object (first ++ later)).All (Leaf.Printed doubles))
    (hfits : (Document.object (first ++ later)).fits objectBuffers = true) (prettyPrint : Bool)
    {length : Nat}
    (hlength : (ascii "\x7b" ++ Document.entriesText doubles prettyPrint 1 true first).length <
      length) :
    ∃ left, left <+: Document.entriesEvents (Document.mapEntries (Leaf.readBack doubles) later) ++
        [(none, .endContainer)] ∧
      (parseDocument doubles objectBuffers none
        (((Document.object (first ++ later)).text doubles prettyPrint 0).take length)).1.map
          Fired.pair = (none, .beginObject) ::
            (Document.entriesEvents (Document.mapEntries (Leaf.readBack doubles) first) ++ left) := by
  let text : Bytes := (Document.object (first ++ later)).text doubles prettyPrint 0
  let start : Bytes := ascii "\x7b" ++ Document.entriesText doubles prettyPrint 1 true first
  obtain ⟨after, htext, d, more, rfl, hend⟩ : ∃ after, text = start ++ after ∧
      EndsNumber after := by
    refine ⟨_, ?_, endsNumber_later doubles prettyPrint (true && first.isEmpty) 1 later
      (all_isspace_lineBreak (prettyPrint && !(first ++ later).isEmpty) 0)⟩
    change (Document.object (first ++ later)).text doubles prettyPrint 0 =
      (ascii "\x7b" ++ Document.entriesText doubles prettyPrint 1 true first) ++ _
    rw [Document.text, entriesText_append]
    simp only [List.append_assoc]
    rfl
  have hstart : start.length < length := hlength
  obtain ⟨extra, rfl⟩ : ∃ extra, length = start.length + (extra + 1) :=
    ⟨length - start.length - 1, by omega⟩
  have htake : text.take (start.length + (extra + 1)) = start ++ d :: more.take extra := by
    rw [htext, List.take_length_add_append]
    rfl
  have hlow := parse_openObject doubles (allEntries_of_append hprinted)
    (entriesFit_of_append hfits) prettyPrint ⟨d, more.take extra, rfl, hend⟩
  have hhigh := (parseDocument_cut doubles objectBuffers none
    (text.take (start.length + (extra + 1))) (text.drop (start.length + (extra + 1)))).first
  have hwhole := (parse_wholeObject doubles hprinted hfits prettyPrint).1
  rw [List.take_append_drop] at hhigh
  change _ <+: (parseDocument doubles objectBuffers none
    ((Document.object (first ++ later)).text doubles prettyPrint 0)).1.map Fired.pair at hhigh
  rw [hwhole] at hhigh
  change (none, Event.beginObject) :: _ <+: (parseDocument doubles objectBuffers none
    (start ++ d :: more.take extra)).1.map Fired.pair at hlow
  rw [← htake] at hlow
  obtain ⟨left, hleft⟩ := hlow
  rw [← hleft] at hhigh
  refine ⟨left, ?_, hleft.symm⟩
  change _ <+: (none, Event.beginObject) :: (Document.entriesEvents (Document.mapEntries
    (Leaf.readBack doubles) (first ++ later)) ++ [(none, Event.endContainer)]) at hhigh
  rw [mapEntries_append, entriesEvents_append, List.cons_append, List.append_assoc] at hhigh
  exact (List.prefix_append_right_inj _).mp (List.cons_prefix_cons.mp hhigh).2

/-- What is left of the later fields are the events of a cut of them, but for ends of containers. -/
theorem cut_of_left (first : List (PlainString × Document δ))
    {later : List (PlainString × Document δ)} {left : List (Option Bytes × Event δ)}
    (hleft : left <+: Document.entriesEvents later ++ [(none, .endContainer)]) :
    ∃ cut count, EntriesCutOf cut later ∧ (Document.object (first ++ cut)).events none =
      ((none, .beginObject) :: (Document.entriesEvents first ++ left)) ++ ends δ count := by
  rcases List.prefix_concat_iff.mp hleft with rfl | hlater
  · refine ⟨later, 0, entriesCutOf_self later, ?_⟩
    rw [Document.events, entriesEvents_append, List.append_assoc]
    exact (List.append_nil _).symm
  · obtain ⟨cut, count, hcut, hevents⟩ := cut_of_entries later hlater
    refine ⟨cut, count + 1, hcut, ?_⟩
    rw [Document.events, entriesEvents_append, hevents, ← List.append_assoc, container_ends]

end Events

/-! ### The object of a document that is cut -/

section Decoding

variable (doubles : Doubles δ) {options : DecodeOptions}

theorem decodeObject_of_events {data : Bytes} {codec : Codec δ}
    (hkeep : options.keepPartialObject = true)
    (hrun : runEvents options ((parseDocument doubles objectBuffers none data).1.map Fired.pair)
      Codec.init = .ok () codec) (hraised : codec.isRaised = false) :
    ∃ decoded, decodeObject doubles options data = some decoded ∧
      decoded.topLevelContainer = codec.topLevelContainer ∧
      decoded.containers = codec.containers ∧
      ((∃ rest, (parseDocument doubles objectBuffers none data).2 = .ok rest) →
        decoded.error = codec.error) := by
  have hstate : endState (decode doubles (callback options) data (maxStringBufferSize + 1)
      Codec.init) = codec := by
    rw [endState_decode doubles (callback options) (fun _ => rfl)]
    exact congrArg endState hrun
  have hkept : ∀ error : Option CodecError,
      (error.isSome && !options.keepPartialObject) = false := fun error => by
    rw [hkeep, Bool.not_true, Bool.and_false]
  unfold decodeObject
  simp only [hstate, hraised, hkept, Bool.false_eq_true, if_false]
  refine ⟨_, rfl, rfl, rfl, ?_⟩
  rintro ⟨rest, hrest⟩
  have hdecode : decode doubles (callback options) data (maxStringBufferSize + 1) Codec.init =
      .ok () codec := by
    rw [decode_eq_replay, replay_eq_forM]
    change (runEvents options ((parseDocument doubles objectBuffers none data).1.map Fired.pair)
      >>= fun _ => liftExcept (parseDocument doubles objectBuffers none data).2 >>= fun _ =>
        callback options none .endData) Codec.init = _
    rw [run_bind_ok hrun, hrest]
    rfl
  rw [hdecode]

/-- Of a report that is cut anywhere, the decoder that keeps partial objects makes an object with
all fields that end before the cut, and of the next field what was there. Of a whole report it
makes the whole object, without an error. -/
theorem decodeObject_take (hkeep : options.keepPartialObject = true)
    {first later : List (PlainString × Document δ)}
    (hprinted : (Document.object (first ++ later)).All (Leaf.Printed doubles))
    (hfits : (Document.object (first ++ later)).fits objectBuffers = true)
    (hutf8 : isUTF8 ((Document.object (first ++ later)).readBack doubles) = true)
    (prettyPrint : Bool) {length : Nat}
    (hlength : (ascii "\x7b" ++ Document.entriesText doubles prettyPrint 1 true first).length <
      length) :
    ∃ decoded cut, decodeObject doubles options
        (((Document.object (first ++ later)).text doubles prettyPrint 0).take length) =
          some decoded ∧
      decoded.topLevelContainer = some 0 ∧
      EntriesCutOf cut (Document.mapEntries (Leaf.readBack doubles) later) ∧
      Holds decoded.containers 0 (.container 0) (objectOf options
        (.object (Document.mapEntries (Leaf.readBack doubles) first ++ cut))) ∧
      (((Document.object (first ++ later)).text doubles prettyPrint 0).length ≤ length →
        decoded.error = none) := by
  obtain ⟨left, hleft, hparse⟩ := parse_cutObject doubles hprinted hfits prettyPrint hlength
  obtain ⟨cut, count, hcut, hevents⟩ := cut_of_left (Document.mapEntries _ first) hleft
  have hcutUTF8 : entriesUTF8 (Document.mapEntries (Leaf.readBack doubles) first ++ cut) =
      true := by
    change entriesUTF8 (Document.mapEntries _ (first ++ later)) = true at hutf8
    rw [mapEntries_append, entriesUTF8_append, Bool.and_eq_true] at hutf8
    rw [entriesUTF8_append, hutf8.1, entriesUTF8_of_entriesCutOf hcut hutf8.2]
    rfl
  obtain ⟨codec, hrun, htop, herror, hraised, hholds⟩ := @run_object δ options _ hcutUTF8
  rw [hevents] at hrun
  obtain ⟨before, hbefore, hsame⟩ := run_before_ends _ count hrun
  rw [← hparse] at hbefore
  obtain ⟨decoded, hdecode, hdecodedTop, hcontainers, hwhole⟩ :=
    decodeObject_of_events doubles hkeep hbefore (hsame.isRaised.symm.trans hraised)
  refine ⟨decoded, cut, hdecode, hdecodedTop.trans (hsame.top.symm.trans htop), hcut, ?_, ?_⟩
  · rw [hcontainers, ← hsame.containers]
    exact hholds
  · intro hall
    refine (hwhole ⟨([], ()), ?_⟩).trans (hsame.error.symm.trans herror)
    rw [List.take_of_length_le hall]
    exact (parse_wholeObject doubles hprinted hfits prettyPrint).2

end Decoding

/-- How `reportWithIntID:` decodes. -/
def reportOptions : DecodeOptions := ⟨true, true, true⟩

/-- The fields before the cut. -/
def readFields : List (PlainString × Document Unit) :=
  [(⟨ascii "crashed", by decide⟩, .leaf (.boolean true))]

/-- A field that is cut in its string. -/
def cutFields : List (PlainString × Document Unit) :=
  [(⟨ascii "dispatch_queue", by decide⟩, .leaf (.string ⟨ascii "main", by decide⟩))]

theorem decodeObject_take_example :
    ∃ decoded cut, decodeObject exampleDoubles reportOptions
        (((Document.object (readFields ++ cutFields)).text exampleDoubles false 0).take 36) =
          some decoded ∧
      decoded.topLevelContainer = some 0 ∧
      EntriesCutOf cut (Document.mapEntries (Leaf.readBack exampleDoubles) cutFields) ∧
      Holds decoded.containers 0 (.container 0) (objectOf reportOptions
        (.object (Document.mapEntries (Leaf.readBack exampleDoubles) readFields ++ cut))) ∧
      (((Document.object (readFields ++ cutFields)).text exampleDoubles false 0).length ≤ 36 →
        decoded.error = none) :=
  @decodeObject_take Unit exampleDoubles reportOptions rfl readFields cutFields
    ⟨trivial, trivial, trivial⟩ (by decide +kernel) (by decide +kernel) false 36
    (by decide +kernel)

end SentryCocoa.JSONObjects
