import SentryCocoa.JSONObjects

/-! The callbacks for a document make its object. -/
namespace SentryCocoa.JSONObjects
open SentryCocoa.JSONCodec SentryCocoa.Library.Simulation

variable {δ : Type}

/-! ### Objects in containers -/

/-- The containers from the base on are the same. -/
def Same (base : Nat) (containers containers' : List (Container δ)) : Prop :=
  ∀ index container, base ≤ index → containers[index]? = some container →
    containers'[index]? = some container

section Holds

variable {containers containers' : List (Container δ)} {base base' : Nat}

mutual

theorem Holds.mono (hsame : Same base containers containers') (hbase : base' ≤ base) :
    ∀ {object : Object δ} {element : Element δ}, Holds containers base element object →
      Holds containers' base' element object
  | .leaf _, _, h => h
  | .array _, _, ⟨index, values, helement, hindex, hcontainer, hvalues⟩ =>
    ⟨index, values, helement, hbase.trans hindex, hsame index _ hindex hcontainer,
      HoldsValues.mono hsame hbase hvalues⟩
  | .dictionary _, _, ⟨index, entries, helement, hindex, hcontainer, hentries⟩ =>
    ⟨index, entries, helement, hbase.trans hindex, hsame index _ hindex hcontainer,
      HoldsEntries.mono hsame hbase hentries⟩

theorem HoldsValues.mono (hsame : Same base containers containers') (hbase : base' ≤ base) :
    ∀ {objects : List (Object δ)} {values : List (Element δ)},
      HoldsValues containers base values objects → HoldsValues containers' base' values objects
  | [], _, h => h
  | _ :: _, _, ⟨value, rest, hvalues, hvalue, hrest⟩ =>
    ⟨value, rest, hvalues, Holds.mono hsame hbase hvalue, HoldsValues.mono hsame hbase hrest⟩

theorem HoldsEntries.mono (hsame : Same base containers containers') (hbase : base' ≤ base) :
    ∀ {objects : List (Bytes × Object δ)} {entries : List (Bytes × Element δ)},
      HoldsEntries containers base entries objects → HoldsEntries containers' base' entries objects
  | [], _, h => h
  | (_, _) :: _, _, ⟨value, rest, hentries, hvalue, hrest⟩ =>
    ⟨value, rest, hentries, Holds.mono hsame hbase hvalue, HoldsEntries.mono hsame hbase hrest⟩

end

theorem HoldsValues.append {values : List (Element δ)} {objects : List (Object δ)}
    (h : HoldsValues containers base values objects) {value : Element δ} {object : Object δ}
    (hvalue : Holds containers base value object) :
    HoldsValues containers base (values ++ [value]) (objects ++ [object]) := by
  induction objects generalizing values with
  | nil =>
    cases h
    exact ⟨value, [], rfl, hvalue, rfl⟩
  | cons first objects ih =>
    obtain ⟨first', rest, rfl, hfirst, hrest⟩ := h
    exact ⟨first', rest ++ [value], rfl, hfirst, ih hrest⟩

theorem HoldsEntries.keys {entries : List (Bytes × Element δ)} {objects : List (Bytes × Object δ)}
    (h : HoldsEntries containers base entries objects) :
    entries.map Prod.fst = objects.map Prod.fst := by
  induction objects generalizing entries with
  | nil =>
    cases h
    rfl
  | cons first objects ih =>
    obtain ⟨value, rest, rfl, -, hrest⟩ := h
    rw [List.map_cons, List.map_cons, ih hrest]

theorem HoldsEntries.replace {entries : List (Bytes × Element δ)}
    {objects : List (Bytes × Object δ)} (h : HoldsEntries containers base entries objects)
    (key : Bytes) {value : Element δ} {object : Object δ}
    (hvalue : Holds containers base value object) :
    HoldsEntries containers base
      (entries.map fun entry => if entry.1 = key then (key, value) else entry)
      (objects.map fun entry => if entry.1 = key then (key, object) else entry) := by
  induction objects generalizing entries with
  | nil =>
    cases h
    rfl
  | cons first objects ih =>
    obtain ⟨key', object'⟩ := first
    obtain ⟨value', rest, rfl, hfirst, hrest⟩ := h
    rw [List.map_cons, List.map_cons]
    by_cases heq : key' = key
    · rw [if_pos heq, if_pos heq]
      exact ⟨value, _, rfl, hvalue, ih hrest⟩
    · rw [if_neg heq, if_neg heq]
      exact ⟨value', _, rfl, hfirst, ih hrest⟩

theorem HoldsEntries.append {entries : List (Bytes × Element δ)}
    {objects : List (Bytes × Object δ)} (h : HoldsEntries containers base entries objects)
    (key : Bytes) {value : Element δ} {object : Object δ}
    (hvalue : Holds containers base value object) :
    HoldsEntries containers base (entries ++ [(key, value)]) (objects ++ [(key, object)]) := by
  induction objects generalizing entries with
  | nil =>
    cases h
    exact ⟨value, [], rfl, hvalue, rfl⟩
  | cons first objects ih =>
    obtain ⟨key', object'⟩ := first
    obtain ⟨value', rest, rfl, hfirst, hrest⟩ := h
    exact ⟨value', _, rfl, hfirst, ih hrest⟩

theorem HoldsEntries.setValue {entries : List (Bytes × Element δ)}
    {objects : List (Bytes × Object δ)} (h : HoldsEntries containers base entries objects)
    (key : Bytes) {value : Element δ} {object : Object δ}
    (hvalue : Holds containers base value object) :
    HoldsEntries containers base (JSONObjects.setValue entries key value)
      (JSONObjects.setValue objects key object) := by
  unfold JSONObjects.setValue
  rw [h.keys]
  split
  · exact h.replace key hvalue
  · exact h.append key hvalue

end Holds

/-! ### One callback -/

section Callbacks

variable {options : DecodeOptions} {codec codec' : Codec δ} {index : Nat} {below : List Nat}
  {container : Container δ}

/-- The container that is open, and those around it. -/
structure At (codec : Codec δ) (index : Nat) (below : List Nat) (container : Container δ) :
    Prop where
  stack : codec.containerStack = index :: below
  current : codec.currentContainer = some index
  container : codec.containers[index]? = some container
  top : codec.topLevelContainer ≠ none

/-- Of the old containers only the one with the index is changed. -/
structure Kept (codec codec' : Codec δ) (index : Nat) : Prop where
  length : codec.containers.length ≤ codec'.containers.length
  others : ∀ other < codec.containers.length, other ≠ index →
    codec'.containers[other]? = codec.containers[other]?
  top : codec'.topLevelContainer = codec.topLevelContainer
  error : codec'.error = codec.error
  isRaised : codec'.isRaised = codec.isRaised

theorem Kept.refl (codec : Codec δ) (index : Nat) : Kept codec codec index :=
  ⟨Nat.le_refl _, fun _ _ _ => rfl, rfl, rfl, rfl⟩

theorem Kept.trans {codec'' : Codec δ} (h : Kept codec codec' index)
    (h' : Kept codec' codec'' index) : Kept codec codec'' index where
  length := h.length.trans h'.length
  others other hlt hne := by
    rw [h'.others other (hlt.trans_le h.length) hne, h.others other hlt hne]
  top := h'.top.trans h.top
  error := h'.error.trans h.error
  isRaised := h'.isRaised.trans h.isRaised

theorem Kept.same (h : Kept codec codec' index) :
    Same (index + 1) codec.containers codec'.containers := by
  intro other container hother hcontainer
  rw [h.others other (List.getElem?_eq_some_iff.mp hcontainer).1 (by omega)]
  exact hcontainer

/-- The container after an object was added. -/
def put (name : Option Bytes) (element : Element δ) : Container δ → Container δ
  | .array values => .array (values ++ [element])
  | .dictionary entries => .dictionary (setValue entries (name.getD []) element)

/-- A dictionary needs a key. -/
def Takes (container : Container δ) (name : Option Bytes) : Prop :=
  ∀ element, add name (some element) container = some (put name element container)

theorem takes_array (values : List (Element δ)) (name : Option Bytes) :
    Takes (.array values) name := fun _ => rfl

theorem takes_dictionary (entries : List (Bytes × Element δ)) (key : Bytes) :
    Takes (.dictionary entries) (some key) := fun _ => rfl

/-- The codec with another content of a container. -/
def replaceContainer (codec : Codec δ) (index : Nat) (container : Container δ) : Codec δ :=
  { codec with containers := codec.containers.set index container }

theorem onElement_run (h : At codec index below container) {name : Option Bytes}
    (htakes : Takes container name) (element : Element δ) :
    onElement name (some element) codec =
      .ok () (replaceContainer codec index (put name element container)) := by
  unfold onElement
  have hget : (get : EStateM JSONError (Codec δ) (Codec δ)) codec = .ok codec codec := rfl
  rw [run_bind_ok hget, replaceContainer]
  simp only [h.current, h.container, Option.bind_some, htakes element]
  rfl

theorem At.replace (h : At codec index below container) (container' : Container δ) :
    At (replaceContainer codec index container') index below container' where
  stack := h.stack
  current := h.current
  container := List.getElem?_set_self (List.getElem?_eq_some_iff.mp h.container).1
  top := h.top

theorem kept_replace (codec : Codec δ) (index : Nat) (container : Container δ) :
    Kept codec (replaceContainer codec index container) index where
  length := by rw [replaceContainer, List.length_set]
  others _ _ hne := List.getElem?_set_ne hne.symm
  top := rfl
  error := rfl
  isRaised := rfl

theorem isIgnored_eq (h : At codec index below container) :
    isIgnored options codec = ignoresNull options container := by
  rw [isIgnored, h.current, Option.bind_some, h.container, Option.any_some]

/-- The container that begins is put into the one that is open, and is open then. -/
def beginContainer (codec : Codec δ) (index : Nat) (name : Option Bytes)
    (container new : Container δ) : Codec δ :=
  { codec with
    containers := (codec.containers ++ [new]).set index
      (put name (.container codec.containers.length) container)
    currentContainer := some codec.containers.length
    containerStack := codec.containers.length :: codec.containerStack }

theorem onBeginContainer_run (h : At codec index below container) {name : Option Bytes}
    (htakes : Takes container name) (new : Container δ) :
    onBeginContainer name new codec = .ok () (beginContainer codec index name container new) := by
  have hlt : index < codec.containers.length := (List.getElem?_eq_some_iff.mp h.container).1
  have hadded : At { codec with containers := codec.containers ++ [new] } index below container :=
    ⟨h.stack, h.current, by rw [List.getElem?_append_left hlt, h.container], h.top⟩
  have helement := onElement_run hadded htakes (.container codec.containers.length)
  unfold onBeginContainer
  have hget : (get : EStateM JSONError (Codec δ) (Codec δ)) codec = .ok codec codec := rfl
  rw [run_bind_ok hget]
  dsimp only
  rw [if_neg h.top]
  have hset : (set { codec with containers := codec.containers ++ [new] } :
      EStateM JSONError (Codec δ) PUnit) codec =
        .ok ⟨⟩ { codec with containers := codec.containers ++ [new] } := rfl
  rw [run_bind_ok hset, run_bind_ok helement]
  rfl

theorem At.begin (h : At codec index below container) (name : Option Bytes) (new : Container δ) :
    At (beginContainer codec index name container new) codec.containers.length (index :: below)
      new where
  stack := by rw [beginContainer, h.stack]
  current := rfl
  container := by
    have hlt : index < codec.containers.length := (List.getElem?_eq_some_iff.mp h.container).1
    rw [beginContainer, List.getElem?_set_ne (Nat.ne_of_lt hlt), List.getElem?_concat_length]
  top := h.top

/-- What happened while an inner container was open, seen from the outer one. -/
theorem Kept.of_begin {name : Option Bytes} {new : Container δ}
    (hkept : Kept (beginContainer codec index name container new) codec' codec.containers.length) :
    Kept codec codec' index where
  length := by
    have hlength := hkept.length
    rw [beginContainer, List.length_set, List.length_append] at hlength
    omega
  others other hlt hne := by
    have hinner : other < (beginContainer codec index name container new).containers.length := by
      rw [beginContainer, List.length_set, List.length_append]
      omega
    rw [hkept.others other hinner (Nat.ne_of_lt hlt), beginContainer,
      List.getElem?_set_ne hne.symm, List.getElem?_append_left hlt]
  top := hkept.top
  error := hkept.error
  isRaised := hkept.isRaised

theorem getElem?_of_begin (h : At codec index below container) {name : Option Bytes}
    {new : Container δ}
    (hkept : Kept (beginContainer codec index name container new) codec' codec.containers.length) :
    codec'.containers[index]? = some (put name (.container codec.containers.length) container) := by
  have hlt : index < codec.containers.length := (List.getElem?_eq_some_iff.mp h.container).1
  have hlength : index < (codec.containers ++ [new]).length := by
    rw [List.length_append]
    omega
  rw [hkept.others index (by rw [beginContainer, List.length_set]; exact hlength)
    (Nat.ne_of_lt hlt), beginContainer, List.getElem?_set_self hlength]

def endContainer (codec : Codec δ) (below : List Nat) : Codec δ :=
  { codec with containerStack := below, currentContainer := below.head? }

theorem onEndContainer_run (h : At codec index below container) :
    onEndContainer codec = .ok () (endContainer codec below) := by
  unfold onEndContainer
  have hget : (get : EStateM JSONError (Codec δ) (Codec δ)) codec = .ok codec codec := rfl
  rw [run_bind_ok hget, h.stack]
  rfl

theorem kept_endContainer (codec : Codec δ) (below : List Nat) (index : Nat) :
    Kept codec (endContainer codec below) index :=
  ⟨Nat.le_refl _, fun _ _ _ => rfl, rfl, rfl, rfl⟩

/-- The outer container is open again, with the inner one in it. -/
theorem At.closed (h : At codec index below container) {name : Option Bytes} {new : Container δ}
    (hkept : Kept (beginContainer codec index name container new) codec' codec.containers.length) :
    At (endContainer codec' (index :: below)) index below
      (put name (.container codec.containers.length) container) := by
  have hcontainer := getElem?_of_begin h hkept
  refine ⟨rfl, rfl, hcontainer, ?_⟩
  rw [endContainer, hkept.top]
  exact h.top

end Callbacks

/-! ### The callbacks of a document -/

section Documents

variable (options : DecodeOptions)

def runEvents (events : List (Option Bytes × Event δ)) : EStateM JSONError (Codec δ) PUnit :=
  events.forM fun event => callback options event.1 event.2

variable {options} {codec codec' codec'' : Codec δ}

theorem runEvents_cons {event : Option Bytes × Event δ} {events : List (Option Bytes × Event δ)}
    (hfirst : callback options event.1 event.2 codec = .ok () codec')
    (hrest : runEvents options events codec' = .ok () codec'') :
    runEvents options (event :: events) codec = .ok () codec'' := by
  change (callback options event.1 event.2 >>= fun _ => runEvents options events) codec = _
  rw [run_bind_ok hfirst]
  exact hrest

theorem runEvents_concat (events rest : List (Option Bytes × Event δ)) :
    runEvents options (events ++ rest) =
      (runEvents options events >>= fun _ => runEvents options rest) := by
  change forM (events ++ rest) (fun event : Option Bytes × Event δ =>
    callback options event.1 event.2) = _
  rw [List.forM_append]
  rfl

theorem runEvents_append {events rest : List (Option Bytes × Event δ)}
    (hfirst : runEvents options events codec = .ok () codec')
    (hrest : runEvents options rest codec' = .ok () codec'') :
    runEvents options (events ++ rest) codec = .ok () codec'' := by
  rw [runEvents_concat, run_bind_ok hfirst]
  exact hrest

theorem run_end {index : Nat} {below : List Nat} {container : Container δ}
    (h : At codec index below container) :
    runEvents options [(none, .endContainer)] codec = .ok () (endContainer codec below) :=
  have hcallback : callback options none .endContainer codec = .ok () (endContainer codec below) :=
    onEndContainer_run h
  runEvents_cons hcallback rfl

mutual

/-- The names and the strings are UTF-8. -/
def isUTF8 : Document δ → Bool
  | .leaf (.string value) => (stringFromCString value.bytes).isSome
  | .leaf _ => true
  | .array values => areUTF8 values
  | .object entries => entriesUTF8 entries

def areUTF8 : List (Document δ) → Bool
  | [] => true
  | value :: rest => isUTF8 value && areUTF8 rest

def entriesUTF8 : List (PlainString × Document δ) → Bool
  | [] => true
  | (key, value) :: rest =>
    (stringFromCString key.bytes).isSome && isUTF8 value && entriesUTF8 rest

end

theorem stringFromCString_eq {string : Bytes} (h : (stringFromCString string).isSome = true) :
    stringFromCString string = some string := by
  unfold stringFromCString at h ⊢
  split
  · rfl
  · rename_i hnot
    rw [if_neg hnot] at h
    cases h

theorem callback_leaf {index : Nat} {below : List Nat} {container : Container δ}
    (h : At codec index below container) {cName : Option Bytes}
    (htakes : Takes container (cName.bind stringFromCString)) {value : Leaf δ}
    (hutf8 : isUTF8 (.leaf value) = true)
    (hnot : (ignoresNull options container && isNull (.leaf value)) = false) :
    callback options cName value.event codec = .ok () (replaceContainer codec index
      (put (cName.bind stringFromCString) (Leaf.element value) container)) := by
  cases value with
  | null =>
    change onNullElement options _ codec = _
    unfold onNullElement
    have hget : (get : EStateM JSONError (Codec δ) (Codec δ)) codec = .ok codec codec := rfl
    rw [run_bind_ok hget, isIgnored_eq h]
    rw [isNull, Bool.and_true] at hnot
    rw [if_neg (by rw [hnot]; decide)]
    exact onElement_run h htakes .null
  | string value =>
    change onElement _ ((stringFromCString value.bytes).map Element.string) codec = _
    rw [isUTF8] at hutf8
    rw [stringFromCString_eq hutf8]
    exact onElement_run h htakes _
  | _ => exact onElement_run h htakes _

theorem callback_ignored {index : Nat} {below : List Nat} {container : Container δ}
    (h : At codec index below container) (cName : Option Bytes)
    (hignores : ignoresNull options container = true) :
    callback options cName .nullElement codec = .ok () codec := by
  change onNullElement options _ codec = _
  unfold onNullElement
  have hget : (get : EStateM JSONError (Codec δ) (Codec δ)) codec = .ok codec codec := rfl
  rw [run_bind_ok hget, isIgnored_eq h, if_pos hignores]
  rfl

/-- What the callbacks of a document leave in the container that is open: nothing of a null that is
ignored, and otherwise its object. -/
structure Made (options : DecodeOptions) (codec codec' : Codec δ) (index : Nat)
    (container : Container δ) (name : Option Bytes) (document : Document δ)
    (container' : Container δ) : Prop where
  kept : Kept codec codec' index
  ignored : (ignoresNull options container && isNull document) = true → container' = container
  added : (ignoresNull options container && isNull document) = false →
    ∃ element, container' = put name element container ∧
      Holds codec'.containers codec.containers.length element (objectOf options document)

mutual

theorem run_document (document : Document δ) (hutf8 : isUTF8 document = true)
    (cName : Option Bytes) {codec : Codec δ} {index : Nat} {below : List Nat}
    {container : Container δ} (h : At codec index below container)
    (htakes : Takes container (cName.bind stringFromCString)) :
    ∃ codec' container', runEvents options (document.events cName) codec = .ok () codec' ∧
      At codec' index below container' ∧
      Made options codec codec' index container (cName.bind stringFromCString) document
        container' := by
  cases document with
  | leaf value =>
    cases hignored : ignoresNull options container && isNull (.leaf value) with
    | true =>
      obtain ⟨hignores, hnull⟩ := Bool.and_eq_true_iff.mp hignored
      cases value with
      | null =>
        refine ⟨codec, container, runEvents_cons (callback_ignored h cName hignores) rfl, h,
          Kept.refl codec index, fun _ => rfl, fun hnot => ?_⟩
        rw [hignored] at hnot
        cases hnot
      | _ => cases hnull
    | false =>
      refine ⟨_, _, runEvents_cons (callback_leaf h htakes hutf8 hignored) rfl, h.replace _,
        kept_replace codec index _, fun hnot => ?_, fun _ => ⟨_, rfl, rfl⟩⟩
      rw [hignored] at hnot
      cases hnot
  | array values =>
    have hbegin := onBeginContainer_run h htakes (.array [])
    have hopen := h.begin (cName.bind stringFromCString) (.array [])
    have hempty : HoldsValues (beginContainer codec index (cName.bind stringFromCString) container
      (.array [])).containers (codec.containers.length + 1) [] [] := rfl
    obtain ⟨codec', elements, hrun, hat, hkept, hholds⟩ := run_values values hutf8 hopen hempty
    have hended := runEvents_append hrun (run_end hat)
    refine ⟨_, _, runEvents_cons hbegin hended, h.closed hkept,
      (Kept.of_begin hkept).trans (kept_endContainer codec' _ index), fun hnot => ?_, fun _ => ?_⟩
    · have hnull : isNull (.array values) = false := rfl
      rw [hnull, Bool.and_false] at hnot
      cases hnot
    · refine ⟨_, rfl, _, elements, rfl, Nat.le_refl _, hat.container, ?_⟩
      exact hholds.mono (fun _ _ _ hcontainer => hcontainer) (Nat.le_succ _)
  | object entries =>
    have hbegin := onBeginContainer_run h htakes (.dictionary [])
    have hopen := h.begin (cName.bind stringFromCString) (.dictionary [])
    have hempty : HoldsEntries (beginContainer codec index (cName.bind stringFromCString) container
      (.dictionary [])).containers (codec.containers.length + 1) [] [] := rfl
    obtain ⟨codec', elements, hrun, hat, hkept, hholds⟩ := run_entries entries hutf8 hopen hempty
    have hended := runEvents_append hrun (run_end hat)
    refine ⟨_, _, runEvents_cons hbegin hended, h.closed hkept,
      (Kept.of_begin hkept).trans (kept_endContainer codec' _ index), fun hnot => ?_, fun _ => ?_⟩
    · have hnull : isNull (.object entries) = false := rfl
      rw [hnull, Bool.and_false] at hnot
      cases hnot
    · refine ⟨_, rfl, _, elements, rfl, Nat.le_refl _, hat.container, ?_⟩
      exact hholds.mono (fun _ _ _ hcontainer => hcontainer) (Nat.le_succ _)

theorem run_values (values : List (Document δ)) (hutf8 : areUTF8 values = true)
    {codec : Codec δ} {index : Nat} {below : List Nat} {elements : List (Element δ)}
    (h : At codec index below (.array elements)) {objects : List (Object δ)}
    (hholds : HoldsValues codec.containers (index + 1) elements objects) :
    ∃ codec' elements', runEvents options (Document.valuesEvents values) codec = .ok () codec' ∧
      At codec' index below (.array elements') ∧ Kept codec codec' index ∧
      HoldsValues codec'.containers (index + 1) elements' (valuesOf options objects values) := by
  cases values with
  | nil => exact ⟨codec, elements, rfl, h, Kept.refl codec index, hholds⟩
  | cons value rest =>
    obtain ⟨hvalue, hrest⟩ := Bool.and_eq_true_iff.mp hutf8
    obtain ⟨codec', container', hrun, hat, hmade⟩ :=
      run_document value hvalue none h (takes_array elements none)
    have hlt : index < codec.containers.length := (List.getElem?_eq_some_iff.mp h.container).1
    have hnext : ∃ elements', container' = .array elements' ∧
        HoldsValues codec'.containers (index + 1) elements'
          (if options.ignoreNullInArray && isNull value then objects
            else objects ++ [objectOf options value]) := by
      have hold := hholds.mono hmade.kept.same (Nat.le_refl _)
      cases hignored : options.ignoreNullInArray && isNull value with
      | true => exact ⟨elements, hmade.ignored hignored, hold⟩
      | false =>
        obtain ⟨element, hcontainer, hobject⟩ := hmade.added hignored
        refine ⟨elements ++ [element], hcontainer, hold.append ?_⟩
        exact hobject.mono (fun _ _ _ hsame => hsame) (Nat.succ_le_of_lt hlt)
    obtain ⟨elements', rfl, hholds'⟩ := hnext
    obtain ⟨codec'', elements'', hrun', hat', hkept', hholds''⟩ := run_values rest hrest hat hholds'
    exact ⟨codec'', elements'', runEvents_append hrun hrun', hat', hmade.kept.trans hkept', hholds''⟩

theorem run_entries (entries : List (PlainString × Document δ)) (hutf8 : entriesUTF8 entries = true)
    {codec : Codec δ} {index : Nat} {below : List Nat} {elements : List (Bytes × Element δ)}
    (h : At codec index below (.dictionary elements)) {objects : List (Bytes × Object δ)}
    (hholds : HoldsEntries codec.containers (index + 1) elements objects) :
    ∃ codec' elements', runEvents options (Document.entriesEvents entries) codec = .ok () codec' ∧
      At codec' index below (.dictionary elements') ∧ Kept codec codec' index ∧
      HoldsEntries codec'.containers (index + 1) elements' (entriesOf options objects entries) := by
  cases entries with
  | nil => exact ⟨codec, elements, rfl, h, Kept.refl codec index, hholds⟩
  | cons entry rest =>
    obtain ⟨key, value⟩ := entry
    obtain ⟨hfirst, hrest⟩ := Bool.and_eq_true_iff.mp hutf8
    obtain ⟨hkey, hvalue⟩ := Bool.and_eq_true_iff.mp hfirst
    have hname : (some key.bytes).bind stringFromCString = some key.bytes :=
      stringFromCString_eq hkey
    obtain ⟨codec', container', hrun, hat, hmade⟩ :=
      run_document value hvalue (some key.bytes) h (by rw [hname]; exact takes_dictionary _ _)
    have hlt : index < codec.containers.length := (List.getElem?_eq_some_iff.mp h.container).1
    have hnext : ∃ elements', container' = .dictionary elements' ∧
        HoldsEntries codec'.containers (index + 1) elements'
          (if options.ignoreNullInObject && isNull value then objects
            else setValue objects key.bytes (objectOf options value)) := by
      have hold := hholds.mono hmade.kept.same (Nat.le_refl _)
      cases hignored : options.ignoreNullInObject && isNull value with
      | true => exact ⟨elements, hmade.ignored hignored, hold⟩
      | false =>
        obtain ⟨element, hcontainer, hobject⟩ := hmade.added hignored
        rw [hname] at hcontainer
        refine ⟨setValue elements key.bytes element, hcontainer, hold.setValue key.bytes ?_⟩
        exact hobject.mono (fun _ _ _ hsame => hsame) (Nat.succ_le_of_lt hlt)
    obtain ⟨elements', rfl, hholds'⟩ := hnext
    obtain ⟨codec'', elements'', hrun', hat', hkept', hholds''⟩ :=
      run_entries rest hrest hat hholds'
    exact ⟨codec'', elements'', runEvents_append hrun hrun', hat', hmade.kept.trans hkept', hholds''⟩

end

/-- The callbacks of a report make its object, in the first container. -/
theorem run_object {entries : List (PlainString × Document δ)}
    (hutf8 : entriesUTF8 entries = true) :
    ∃ codec' : Codec δ,
      runEvents options ((Document.object entries).events none) Codec.init = .ok () codec' ∧
        codec'.topLevelContainer = some 0 ∧ codec'.error = none ∧ codec'.isRaised = false ∧
        Holds codec'.containers 0 (.container 0) (objectOf options (.object entries)) := by
  let begun : Codec δ := ⟨[.dictionary []], some 0, some 0, [0], none, false⟩
  have hbegin : callback options none .beginObject (Codec.init : Codec δ) = .ok () begun := rfl
  have hopen : At begun 0 [] (.dictionary []) := ⟨rfl, rfl, rfl, Option.some_ne_none 0⟩
  have hempty : HoldsEntries begun.containers 1 [] [] := rfl
  obtain ⟨codec', elements, hrun, hat, hkept, hholds⟩ :=
    @run_entries δ options entries hutf8 begun 0 [] [] hopen [] hempty
  have hended := runEvents_append hrun (run_end hat)
  refine ⟨_, runEvents_cons hbegin hended, hkept.top, hkept.error, hkept.isRaised, 0, elements,
    rfl, Nat.le_refl 0, hat.container, ?_⟩
  exact hholds.mono (fun _ _ _ hcontainer => hcontainer) (Nat.zero_le 1)

end Documents

end SentryCocoa.JSONObjects
