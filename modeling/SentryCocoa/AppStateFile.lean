import SentryCocoa.AppStateMonitor

/-! The state file, whole or cut. Of a file that was cut the state takes what was written, so
the flag of a crash survives once it is there, and so do the launches. -/
namespace SentryCocoa.AppStateMonitor
open SentryCocoa.JSONCodec SentryCocoa.Library.Simulation

variable {δ : Type} (arithmetic : Arithmetic δ)

/-! The text. -/

def crashedField (state : AppState δ) : Entry δ :=
  (kKeyCrashedLastLaunch, .boolean state.crashedThisLaunch)

def durationFields (state : AppState δ) (initializeTime now : δ) : List (Entry δ) :=
  [(kKeyDurationFromCrashStateInitToLastCrash,
      .floatingPoint (durationToCrash arithmetic state initializeTime now)),
    (kKeyActiveDurationSinceLastCrash, .floatingPoint state.activeDurationSinceLastCrash),
    (kKeyBackgroundDurationSinceLastCrash, .floatingPoint state.backgroundDurationSinceLastCrash)]

def launchesField (state : AppState δ) : Entry δ :=
  (kKeyLaunchesSinceLastCrash, .integer state.launchesSinceLastCrash.toInt64)

def sessionsField (state : AppState δ) : Entry δ :=
  (kKeySessionsSinceLastCrash, .integer state.sessionsSinceLastCrash.toInt64)

def versionField : Entry δ := (kKeyFormatVersion, .integer kFormatVersion)

def stateFields (state : AppState δ) (initializeTime now : δ) : List (Entry δ) :=
  versionField :: crashedField state :: (durationFields arithmetic state initializeTime now ++
    [launchesField state, sessionsField state])

theorem saveState_eq (state : AppState δ) (initializeTime now : δ) :
    saveState arithmetic state initializeTime now =
      objectText arithmetic.toDoubles true (stateFields arithmetic state initializeTime now) := by
  obtain ⟨context, hrun, htext⟩ := encodeFields_run arithmetic.toDoubles true
    (stateFields arithmetic state initializeTime now)
  have hwrite : (writeState arithmetic state initializeTime now : Encode Bytes Unit) = (do
      beginObject none
      addFields arithmetic.toDoubles (stateFields arithmetic state initializeTime now)
      endEncode) := by
    unfold writeState stateFields durationFields
    simp only [List.cons_append, List.nil_append, addFields, bind_assoc, pure_bind, addField,
      versionField, crashedField, launchesField, sessionsField]
  have hrun' : writeState arithmetic state initializeTime now (beginEncode true collect []) =
      .ok () context := by
    rw [hwrite]
    exact hrun
  rw [saveState, hrun']
  exact htext

/-! What the callbacks make of the fields. -/

/-- What is known of the launches before. -/
def AppState.known (state : AppState δ) : Bool × Int32 :=
  (state.crashedLastLaunch, state.launchesSinceLastCrash)

theorem AppState.known_fst (state : AppState δ) :
    state.known.1 = state.crashedLastLaunch := rfl

/-- A callback that succeeds, and what is known behind it. -/
def Tells (callback : Callback δ Unit) (state : AppState δ) (known : Bool × Int32) : Prop :=
  ∃ state', callback state = .ok () state' ∧ state'.known = known

theorem tells_floatingPoint (name : Bytes) (value : δ) (state : AppState δ) :
    Tells (onFloatingPointElement (some name) value) state state.known := by
  refine ⟨_, rfl, ?_⟩
  dsimp only
  split
  · rfl
  · split
    · rfl
    · split
      · rfl
      · rfl

/-- A whole number is noted under its name, and then it is taken for a duration. -/
theorem tells_integer (name : Bytes) (value : Int64)
    (hversion : name = kKeyFormatVersion.bytes → value = kFormatVersion) (state : AppState δ) :
    Tells (onIntegerElement arithmetic (some name) value) state
      (if name = kKeyLaunchesSinceLastCrash.bytes then
        (state.crashedLastLaunch, value.toInt32) else state.known) := by
  by_cases hname : name = kKeyFormatVersion.bytes
  · obtain ⟨state', hrun, hknown⟩ :=
      tells_floatingPoint name (arithmetic.ofInt64 value) state
    refine ⟨state', ?_, ?_⟩
    · rw [← hrun]
      unfold onIntegerElement
      dsimp only
      rw [if_pos hname, if_neg (fun h => h (hversion hname))]
    · have hlaunches : name ≠ kKeyLaunchesSinceLastCrash.bytes := by
        rw [hname]
        decide
      rw [hknown, if_neg hlaunches]
  · let noted : AppState δ :=
      if name = kKeyLaunchesSinceLastCrash.bytes then
        { state with launchesSinceLastCrash := value.toInt32 }
      else if name = kKeySessionsSinceLastCrash.bytes then
        { state with sessionsSinceLastCrash := value.toInt32 }
      else state
    obtain ⟨state', hrun, hknown⟩ :=
      tells_floatingPoint name (arithmetic.ofInt64 value) noted
    refine ⟨state', ?_, ?_⟩
    · rw [← hrun]
      unfold onIntegerElement
      dsimp only
      rw [if_neg hname]
      rfl
    · rw [hknown]
      dsimp only [noted]
      split
      · rfl
      · split
        · rfl
        · rfl

theorem tells_boolean (name : Bytes) (value : Bool) (state : AppState δ) :
    Tells (onBooleanElement (some name) value) state
      (if name = kKeyCrashedLastLaunch.bytes then
        (value, state.launchesSinceLastCrash) else state.known) := by
  refine ⟨_, rfl, ?_⟩
  dsimp only
  split
  · rfl
  · rfl

/-- The callback for a duration. -/
theorem tells_duration {name : PlainString} (hversion : name.bytes ≠ kKeyFormatVersion.bytes)
    (hlaunches : name.bytes ≠ kKeyLaunchesSinceLastCrash.bytes) {value : δ}
    {pair : Option Bytes × Event δ} (h : ReadField (name, .floatingPoint value) pair)
    (state : AppState δ) : Tells (callbacks arithmetic pair.1 pair.2) state state.known := by
  obtain ⟨name', event⟩ := pair
  obtain ⟨hname, hevent⟩ := h
  dsimp only at hname hevent
  subst hname
  rcases hevent with rfl | hnumber
  · exact ⟨state, rfl, rfl⟩
  · cases event with
    | integerElement value =>
      have htells := tells_integer arithmetic name.bytes value (fun h => absurd h hversion)
        state
      rw [if_neg hlaunches] at htells
      exact htells
    | floatingPointElement value => exact tells_floatingPoint name.bytes value state
    | uintegerElement value => exact ⟨state, rfl, rfl⟩
    | _ => cases hnumber

/-- What the fields make known. -/
def noted (known : Bool × Int32) (field : Entry δ) : Bool × Int32 :=
  match field.2 with
  | .boolean value =>
    if field.1.bytes = kKeyCrashedLastLaunch.bytes then (value, known.2) else known
  | .integer value =>
    if field.1.bytes = kKeyLaunchesSinceLastCrash.bytes then (known.1, value.toInt32) else known
  | .floatingPoint _ => known

theorem tells_field {state : AppState δ} {initializeTime now : δ} {field : Entry δ}
    (hfield : field ∈ stateFields arithmetic state initializeTime now)
    {pair : Option Bytes × Event δ} (h : ReadField field pair) (state' : AppState δ) :
    Tells (callbacks arithmetic pair.1 pair.2) state' (noted state'.known field) := by
  have hinteger : ∀ {name : PlainString} {value : Int64},
      (name.bytes = kKeyFormatVersion.bytes → value = kFormatVersion) →
      ReadField (name, (.integer value : Scalar δ)) pair →
        Tells (callbacks arithmetic pair.1 pair.2) state'
          (noted state'.known (name, (.integer value : Scalar δ))) := by
    intro name value hversion h
    obtain ⟨name', event⟩ := pair
    obtain ⟨rfl, rfl⟩ := h
    exact tells_integer arithmetic _ _ hversion state'
  simp only [stateFields, durationFields, List.cons_append, List.nil_append, List.mem_cons,
    List.not_mem_nil, or_false] at hfield
  rcases hfield with rfl | rfl | rfl | rfl | rfl | rfl | rfl
  · exact hinteger (fun _ => rfl) h
  · obtain ⟨name', event⟩ := pair
    obtain ⟨rfl, rfl⟩ := h
    exact tells_boolean _ _ state'
  · exact tells_duration arithmetic (by decide) (by decide) h state'
  · exact tells_duration arithmetic (by decide) (by decide) h state'
  · exact tells_duration arithmetic (by decide) (by decide) h state'
  · exact hinteger (fun h => absurd h (by decide)) h
  · exact hinteger (fun h => absurd h (by decide)) h

/-! What is known of the state behind the callbacks. -/

/-- The callbacks of the decoder, one event after the other. -/
def readEvents (events : List (Option Bytes × Event δ)) : Callback δ Unit :=
  events.forM fun event => callbacks arithmetic event.1 event.2

theorem readEvents_cons {pair : Option Bytes × Event δ} {state state' : AppState δ}
    (h : callbacks arithmetic pair.1 pair.2 state = .ok () state')
    (events : List (Option Bytes × Event δ)) :
    readEvents arithmetic (pair :: events) state = readEvents arithmetic events state' :=
  run_bind_ok h

theorem readEvents_begin (events : List (Option Bytes × Event δ)) (state : AppState δ) :
    readEvents arithmetic ((none, .beginObject) :: events) state =
      readEvents arithmetic events state := rfl

theorem readEvents_end (events : List (Option Bytes × Event δ)) (state : AppState δ) :
    readEvents arithmetic ((none, .endContainer) :: events) state =
      readEvents arithmetic events state := rfl

/-- The fields are noted one after the other. -/
theorem readEvents_fields {state : AppState δ} {initializeTime now : δ} {fields : List (Entry δ)}
    (hfields : ∀ field ∈ fields, field ∈ stateFields arithmetic state initializeTime now)
    {events : List (Option Bytes × Event δ)} (h : List.Forall₂ ReadField fields events)
    (extra : List (Option Bytes × Event δ)) (before : AppState δ) :
    ∃ behind, behind.known = fields.foldl noted before.known ∧
      readEvents arithmetic (events ++ extra) before = readEvents arithmetic extra behind := by
  induction h generalizing before with
  | nil => exact ⟨before, rfl, rfl⟩
  | cons hread _ ih =>
    obtain ⟨next, hnext, hknown⟩ :=
      tells_field arithmetic (hfields _ List.mem_cons_self) hread before
    obtain ⟨behind, hbehind, hrest⟩ :=
      ih (fun field hfield => hfields field (List.mem_cons_of_mem _ hfield)) next
    refine ⟨behind, ?_, (readEvents_cons arithmetic hnext _).trans hrest⟩
    rw [hbehind, hknown, List.foldl_cons]

/-- What the other fields do not change is as it was, whichever of them were read. -/
theorem readEvents_extra {α : Type} {part : Bool × Int32 → α}
    {state : AppState δ} {initializeTime now : δ} {others : List (Entry δ)}
    (hothers : ∀ field ∈ others, field ∈ stateFields arithmetic state initializeTime now ∧
      ∀ known, part (noted known field) = part known)
    {extra : List (Option Bytes × Event δ)}
    (hextra : ∀ pair ∈ extra,
      pair = (none, .endContainer) ∨ ∃ field ∈ others, ReadField field pair)
    (before : AppState δ) :
    part (endState (readEvents arithmetic extra before)).known = part before.known := by
  induction extra generalizing before with
  | nil => rfl
  | cons pair extra ih =>
    have hrest := ih fun other hother => hextra other (List.mem_cons_of_mem _ hother)
    rcases hextra pair List.mem_cons_self with rfl | ⟨field, hfield, hread⟩
    · rw [readEvents_end]
      exact hrest before
    · obtain ⟨hmem, hpart⟩ := hothers field hfield
      obtain ⟨next, hnext, hknown⟩ := tells_field arithmetic hmem hread before
      rw [readEvents_cons arithmetic hnext, hrest next, hknown, hpart]

/-- How much of the file must be there for the launch to be known. -/
def recordedLength (state : AppState δ) (initializeTime now : δ) : Nat :=
  if state.crashedThisLaunch then
    fieldEnd arithmetic.toDoubles true [versionField] (crashedField state)
  else
    fieldEnd arithmetic.toDoubles true
      (versionField :: crashedField state :: durationFields arithmetic state initializeTime now)
      (launchesField state)

theorem recordedLength_le (state : AppState δ) (initializeTime now : δ) :
    recordedLength arithmetic state initializeTime now ≤
      (saveState arithmetic state initializeTime now).length := by
  rw [saveState_eq]
  unfold recordedLength
  split
  · exact fieldEnd_le_length [versionField] _ (crashedField state) true
  · exact fieldEnd_le_length (versionField :: crashedField state ::
      durationFields arithmetic state initializeTime now) [sessionsField state]
        (launchesField state) true

def stateKeys : List PlainString :=
  [kKeyFormatVersion, kKeyCrashedLastLaunch, kKeyDurationFromCrashStateInitToLastCrash,
    kKeyActiveDurationSinceLastCrash, kKeyBackgroundDurationSinceLastCrash,
    kKeyLaunchesSinceLastCrash, kKeySessionsSinceLastCrash]

theorem key_fits (state : AppState δ) (initializeTime now : δ) :
    ∀ field ∈ stateFields arithmetic state initializeTime now,
      (escape field.1.bytes).length ≤ 40 := by
  intro field hfield
  have hkeys : ∀ key ∈ stateKeys, (escape key.bytes).length ≤ 40 := by decide
  exact hkeys field.1 (List.mem_map_of_mem (f := Prod.fst) hfield)

/-- The durations that a save writes are finite, or they are no numbers. -/
def Durations (state : AppState δ) (initializeTime now : δ) : Prop :=
  ∀ field ∈ durationFields arithmetic state initializeTime now,
    field.2.Printed arithmetic.toDoubles

theorem stateFields_printed {state : AppState δ} {initializeTime now : δ}
    (hdurations : Durations arithmetic state initializeTime now) :
    ∀ field ∈ stateFields arithmetic state initializeTime now,
      field.2.Printed arithmetic.toDoubles := by
  intro field hfield
  simp only [stateFields, List.mem_cons, List.mem_append, List.not_mem_nil, or_false] at hfield
  rcases hfield with rfl | rfl | hfield | rfl | rfl
  · trivial
  · trivial
  · exact hdurations field hfield
  · trivial
  · trivial

theorem saveState_length_le {state : AppState δ} {initializeTime now : δ}
    (hdurations : Durations arithmetic state initializeTime now) :
    (saveState arithmetic state initializeTime now).length ≤ 50000 := by
  have hfields := fieldsText_length_le (key_fits arithmetic state initializeTime now)
    (stateFields_printed arithmetic hdurations) true true
  have hcount : (stateFields arithmetic state initializeTime now).length = 7 := rfl
  have hbreak : (lineBreak true 0).length = 1 := by decide
  have hopen : (ascii "\x7b").length = 1 := by decide
  have hclose : (ascii "\x7d").length = 1 := by decide
  have hnonempty : (true && !(stateFields arithmetic state initializeTime now).isEmpty) = true :=
    rfl
  rw [saveState_eq, objectText, hnonempty]
  simp only [List.length_append]
  rw [hcount] at hfields
  omega

theorem loadState_eq {state : AppState δ} {initializeTime now : δ}
    (hdurations : Durations arithmetic state initializeTime now) (length : Nat)
    (before : AppState δ) :
    loadState arithmetic (some ((saveState arithmetic state initializeTime now).take length))
        before =
      endState (readEvents arithmetic ((parseDocument arithmetic.toDoubles ⟨250, 750⟩ none
        ((saveState arithmetic state initializeTime now).take length)).1.map Fired.pair)
          before) := by
  have hlength : ((saveState arithmetic state initializeTime now).take length).length - 50000 =
      0 := by
    have hle := saveState_length_le arithmetic hdurations
    rw [List.length_take]
    omega
  unfold loadState
  dsimp only
  rw [endState_decode _ _ (fun _ => rfl), readEntireFile, hlength, List.drop_zero]
  rfl

/-- What the fields behind the cut do not change is known from those before it. -/
theorem known_take {state : AppState δ} {initializeTime now : δ}
    (hdurations : Durations arithmetic state initializeTime now) {fields others : List (Entry δ)} {last : Entry δ}
    (hfields : stateFields arithmetic state initializeTime now = fields ++ last :: others)
    {length : Nat} (hlength : fieldEnd arithmetic.toDoubles true fields last ≤ length)
    {α : Type} (part : Bool × Int32 → α)
    (hpart : ∀ field ∈ others, ∀ known, part (noted known field) = part known)
    (before : AppState δ) :
    part (loadState arithmetic
        (some ((saveState arithmetic state initializeTime now).take length)) before).known =
      part ((fields ++ [last]).foldl noted before.known) := by
  have hreadable : ∀ field ∈ fields ++ last :: others,
      Entry.Readable arithmetic.toDoubles ⟨250, 750⟩ field := by
    intro field hfield
    rw [← hfields] at hfield
    have hkey := key_fits arithmetic state initializeTime now field hfield
    exact ⟨hkey.trans_lt (by decide), stateFields_printed arithmetic hdurations field hfield⟩
  have hmem : ∀ field ∈ fields ++ [last],
      field ∈ stateFields arithmetic state initializeTime now := by
    intro field hfield
    rw [List.mem_append, List.mem_singleton] at hfield
    rw [hfields, List.mem_append, List.mem_cons]
    tauto
  have hothers : ∀ field ∈ others, field ∈ stateFields arithmetic state initializeTime now ∧
      ∀ known, part (noted known field) = part known := by
    intro field hfield
    refine ⟨?_, hpart field hfield⟩
    rw [hfields, List.mem_append, List.mem_cons]
    exact Or.inr (Or.inr hfield)
  have hbuffer : 50 ≤ (⟨250, 750⟩ : DecodeBuffers).stringBufferLength := by decide
  obtain ⟨events, extra, hevents, hextra, hpairs⟩ :=
    parseDocument_take hbuffer fields others last hreadable true hlength
  obtain ⟨behind, hbehind, hrun⟩ := readEvents_fields arithmetic hmem hevents extra before
  rw [loadState_eq arithmetic hdurations, saveState_eq, hfields, hpairs,
    readEvents_begin, hrun,
    readEvents_extra arithmetic hothers hextra, hbehind]

theorem noted_version (known : Bool × Int32) :
    noted known (versionField : Entry δ) = known := by
  have hkey : kKeyFormatVersion.bytes ≠ kKeyLaunchesSinceLastCrash.bytes := by decide
  unfold noted versionField
  dsimp only
  rw [if_neg hkey]

theorem noted_crashed (known : Bool × Int32) (state : AppState δ) :
    noted known (crashedField state) = (state.crashedThisLaunch, known.2) := by
  unfold noted crashedField
  dsimp only
  rw [if_pos rfl]

theorem noted_launches (known : Bool × Int32) (state : AppState δ) :
    noted known (launchesField state) = (known.1, state.launchesSinceLastCrash) := by
  unfold noted launchesField
  dsimp only
  rw [if_pos rfl, Int32.toInt32_toInt64]

theorem noted_sessions (known : Bool × Int32) (state : AppState δ) :
    noted known (sessionsField state) = known := by
  have hkey : kKeySessionsSinceLastCrash.bytes ≠ kKeyLaunchesSinceLastCrash.bytes := by decide
  unfold noted sessionsField
  dsimp only
  rw [if_neg hkey]

theorem noted_duration {state : AppState δ} {initializeTime now : δ} {field : Entry δ}
    (h : field ∈ durationFields arithmetic state initializeTime now)
    (known : Bool × Int32) : noted known field = known := by
  simp only [durationFields, List.mem_cons, List.not_mem_nil, or_false] at h
  rcases h with rfl | rfl | rfl
  · rfl
  · rfl
  · rfl

/-- The flag of a crash is known once it is written. -/
theorem crash_known {state : AppState δ} {initializeTime now : δ}
    (hdurations : Durations arithmetic state initializeTime now) {length : Nat}
    (hlength : fieldEnd arithmetic.toDoubles true [versionField] (crashedField state) ≤ length)
    (before : AppState δ) :
    (loadState arithmetic (some ((saveState arithmetic state initializeTime now).take length))
      before).crashedLastLaunch = state.crashedThisLaunch := by
  have hfields : stateFields arithmetic state initializeTime now =
      [versionField] ++ crashedField state ::
        (durationFields arithmetic state initializeTime now ++
          [launchesField state, sessionsField state]) := rfl
  have hothers : ∀ field ∈ durationFields arithmetic state initializeTime now ++
      [launchesField state, sessionsField state], ∀ known : Bool × Int32,
        (noted known field).1 = known.1 := by
    intro field hfield known
    simp only [List.mem_append, List.mem_cons, List.not_mem_nil, or_false] at hfield
    rcases hfield with hfield | rfl | rfl
    · rw [noted_duration arithmetic hfield]
    · rw [noted_launches]
    · rw [noted_sessions]
  have hknown := known_take arithmetic hdurations hfields hlength Prod.fst hothers before
  rw [List.foldl_append, List.foldl_cons, List.foldl_cons, List.foldl_nil, List.foldl_nil,
    noted_version, noted_crashed, AppState.known_fst] at hknown
  exact hknown

/-- The launches are known once their number and the comma behind it are written. -/
theorem launches_known {state : AppState δ} {initializeTime now : δ}
    (hdurations : Durations arithmetic state initializeTime now) {length : Nat}
    (hlength : fieldEnd arithmetic.toDoubles true (versionField :: crashedField state ::
      durationFields arithmetic state initializeTime now) (launchesField state) ≤ length)
    (before : AppState δ) :
    (loadState arithmetic (some ((saveState arithmetic state initializeTime now).take length))
      before).known = (state.crashedThisLaunch, state.launchesSinceLastCrash) := by
  have hfields : stateFields arithmetic state initializeTime now =
      (versionField :: crashedField state ::
        durationFields arithmetic state initializeTime now) ++ launchesField state ::
          [sessionsField state] := rfl
  have hothers : ∀ field ∈ [sessionsField state], ∀ known : Bool × Int32,
      id (noted known field) = id known := by
    intro field hfield known
    rw [List.mem_singleton.mp hfield, noted_sessions]
  have hnoted : (versionField :: crashedField state ::
      durationFields arithmetic state initializeTime now).foldl noted before.known =
        noted (noted before.known versionField) (crashedField state) := rfl
  have hknown := known_take arithmetic hdurations hfields hlength id hothers before
  rw [List.foldl_append, hnoted, List.foldl_cons, List.foldl_nil, noted_version,
    noted_crashed, noted_launches, id_eq, id_eq] at hknown
  exact hknown

end SentryCocoa.AppStateMonitor
