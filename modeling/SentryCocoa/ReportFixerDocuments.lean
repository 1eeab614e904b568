import SentryCocoa.ReportFixerPaths
import SentryCocoa.ReportFixerOutput
import SentryCocoa.ReportFixerDates
import SentryCocoa.JSONRereading

/-! What the fixer makes of a document: the integers at the paths of the dates become dates, and
the rest is written again as it was. -/
namespace SentryCocoa.ReportFixer
open JSONCodec JSONCodec.Document Library.Simulation

variable {δ : Type}

/-! The dates in a document. -/

def fixLeaf (date : Int64 → PlainString) (names : List Bytes) (name : Option Bytes) :
    Leaf δ → Leaf δ
  | .integer value =>
    if names ++ [name.getD []] ∈ datePaths then .string (date value) else .integer value
  | value => value

/-- The document with the integers at the paths of the dates replaced. -/
def fixDates (date : Int64 → PlainString) (document : Document δ) : Document δ :=
  document.mapAt (fixLeaf date) [] none

/-- An integer that the fixer takes for a date is at the end of a path. -/
def RegularLeaf (names : List Bytes) (name : Option Bytes) : Leaf δ → Prop
  | .integer _ =>
    ¬InsideDate names ∧
      (MatchesDate (names ++ [name.getD []]) → names ++ [name.getD []] ∈ datePaths)
  | _ => True

/-- Of the integers in the document the fixer takes those at the paths of the dates. -/
def Regular (document : Document δ) : Prop := document.AllAt RegularLeaf [] none

/-! The run over a document. -/

def replayEvents (doubles : Doubles δ) : List (Option Bytes × Event δ) → Fixup Unit
  | [] => pure ()
  | (name, event) :: rest => do
    callbacks doubles name event
    replayEvents doubles rest

theorem replayReport_eq (doubles : Doubles δ) (fired : List (Fired δ)) :
    replayReport doubles fired = replayEvents doubles (fired.map Fired.pair) := by
  induction fired with
  | nil => rfl
  | cons first rest ih =>
    rw [replayReport, ih]
    rfl

theorem replayEvents_append (doubles : Doubles δ)
    (first second : List (Option Bytes × Event δ)) :
    replayEvents doubles (first ++ second) =
      replayEvents doubles first >>= fun _ => replayEvents doubles second := by
  induction first with
  | nil => simp [replayEvents]
  | cons event first ih => simp [replayEvents, ih]

/-- The events are accepted, the encoder is then as given, and the names are the same again. -/
def Replays (doubles : Doubles δ) (events : List (Option Bytes × Event δ)) (names : List Bytes)
    (context : FixupContext) (encodeContext : EncodeContext Output) : Prop :=
  ∃ context', replayEvents doubles events context = .ok () context' ∧
    context'.encodeContext = encodeContext ∧ OnPath names context'

theorem encode_run_ok {function : Encode Output Unit} {context : FixupContext}
    {encodeContext : EncodeContext Output}
    (h : function context.encodeContext = .ok () encodeContext) :
    encode function context = .ok () { context with encodeContext := encodeContext } := by
  unfold encode
  rw [run_bind_ok (attempt_ok h)]
  rfl

section

variable (doubles : Doubles δ) {names : List Bytes} {context : FixupContext}
  (h : OnPath names context) (name : Option Bytes) {encodeContext : EncodeContext Output}

include h

theorem callbacks_leaf (value : Leaf δ) (hregular : RegularLeaf names name value)
    (hencode : (fixLeaf dateString names name value).add doubles name context.encodeContext =
      .ok () encodeContext) :
    callbacks doubles name value.event context =
      .ok () { context with encodeContext := encodeContext } := by
  cases value with
  | integer value =>
    obtain ⟨hinside, hmatches⟩ := hregular
    have hfix := shouldFixDate_eq h name
    rw [if_neg hinside] at hfix
    change (shouldFixDate name >>= fun fix =>
      if fix = true then encode (addStringElement name (some (utcStringFromTimestamp value)))
      else encode (addIntegerElement name value)) context = _
    rw [run_bind_ok hfix]
    unfold fixLeaf at hencode
    dsimp only at hencode
    by_cases hpath : names ++ [name.getD []] ∈ datePaths
    · have hfound : MatchesDate (names ++ [name.getD []]) := ⟨_, hpath, List.prefix_refl _⟩
      rw [if_pos hpath, Leaf.add, dateString_bytes] at hencode
      rw [if_pos (decide_eq_true hfound)]
      exact encode_run_ok hencode
    · rw [if_neg hpath] at hencode
      rw [if_neg fun hfix => hpath (hmatches (of_decide_eq_true hfix))]
      exact encode_run_ok hencode
  | null => exact encode_run_ok hencode
  | boolean value => exact encode_run_ok hencode
  | uinteger value => exact encode_run_ok hencode
  | floatingPoint value => exact encode_run_ok hencode
  | string value => exact encode_run_ok hencode

theorem onBeginContainer_run (begin : Encode Output Unit) (hdepth : names.length < MAX_DEPTH)
    (hbegin : begin context.encodeContext = .ok () encodeContext) :
    ∃ context', onBeginContainer begin name context = .ok () context' ∧
      context'.encodeContext = encodeContext ∧ OnPath (names ++ [name.getD []]) context' := by
  obtain ⟨context', hincrease, hencoder, hpath⟩ :=
    increaseDepth_lt (h.withEncodeContext encodeContext) hdepth name
  refine ⟨context', ?_, hencoder, hpath⟩
  unfold onBeginContainer
  rw [run_bind_ok (attempt_ok hbegin), run_bind_ok hincrease]
  rfl

theorem onEndContainer_run (hend : endContainer context.encodeContext = .ok () encodeContext) :
    ∃ context', onEndContainer context = .ok () context' ∧
      context'.encodeContext = encodeContext ∧ OnPath names.dropLast context' := by
  obtain ⟨result, context', hdecrease, hencoder, hpath⟩ :=
    decreaseDepth_run (h.withEncodeContext encodeContext)
  refine ⟨context', ?_, hencoder, hpath⟩
  unfold onEndContainer
  rw [run_bind_ok (attempt_ok hend), run_bind_ok hdecrease]
  rfl

end

theorem Replays.append (doubles : Doubles δ) {first second : List (Option Bytes × Event δ)}
    {names : List Bytes} {context context' : FixupContext}
    {encodeContext : EncodeContext Output}
    (hfirst : replayEvents doubles first context = .ok () context')
    (hsecond : Replays doubles second names context' encodeContext) :
    Replays doubles (first ++ second) names context encodeContext := by
  obtain ⟨context'', hrun, hencoder, hpath⟩ := hsecond
  refine ⟨context'', ?_, hencoder, hpath⟩
  rw [replayEvents_append, run_bind_ok hfirst, hrun]

/-- A container is written around what is written of its elements. -/
theorem Replays.container (doubles : Doubles δ) {names : List Bytes} {context : FixupContext}
    (h : OnPath names context) (name : Option Bytes) {event : Event δ}
    {events : List (Option Bytes × Event δ)} {begin elements : Encode Output Unit}
    (hevent : callbacks doubles name event = onBeginContainer begin name)
    (hdepth : names.length < MAX_DEPTH) {encodeContext : EncodeContext Output}
    (hencode : (begin >>= fun _ => elements >>= fun _ => endContainer) context.encodeContext =
      .ok () encodeContext)
    (helements : ∀ {context encodeContext}, OnPath (names ++ [name.getD []]) context →
      elements context.encodeContext = .ok () encodeContext →
        Replays doubles events (names ++ [name.getD []]) context encodeContext) :
    Replays doubles ((name, event) :: (events ++ [(none, .endContainer)])) names context
      encodeContext := by
  obtain ⟨_, begun, hbegin, hencode⟩ := run_bind_eq_ok_iff.mp hencode
  obtain ⟨_, inner, hinner, hend⟩ := run_bind_eq_ok_iff.mp hencode
  obtain ⟨context₁, hrun₁, rfl, hpath₁⟩ := onBeginContainer_run h name begin hdepth hbegin
  obtain ⟨context₂, hrun₂, rfl, hpath₂⟩ := helements hpath₁ hinner
  obtain ⟨context₃, hrun₃, rfl, hpath₃⟩ := onEndContainer_run hpath₂ hend
  rw [List.dropLast_concat] at hpath₃
  refine ⟨context₃, ?_, rfl, hpath₃⟩
  rw [replayEvents, hevent, run_bind_ok hrun₁, replayEvents_append, run_bind_ok hrun₂]
  exact run_bind_ok hrun₃

mutual

/-- The fixer writes a document with its dates replaced. -/
theorem replay_document (doubles : Doubles δ) (document : Document δ) {names : List Bytes}
    {context : FixupContext} (h : OnPath names context) (name : Option Bytes)
    (hregular : document.AllAt RegularLeaf names name)
    (hdepth : names.length + document.depth ≤ MAX_DEPTH)
    {encodeContext : EncodeContext Output}
    (hencode : (document.mapAt (fixLeaf dateString) names name).encode doubles name
      context.encodeContext = .ok () encodeContext) :
    Replays doubles (document.events name) names context encodeContext := by
  cases document with
  | leaf value =>
    have hleaf := callbacks_leaf doubles h name value hregular hencode
    exact ⟨_, run_bind_ok hleaf, rfl, h.withEncodeContext _⟩
  | array values =>
    rw [Document.depth] at hdepth
    refine Replays.container doubles h name rfl (by omega) hencode fun hpath hvalues => ?_
    apply replay_values doubles values hpath hregular _ hvalues
    rw [List.length_append, List.length_singleton]
    omega
  | object entries =>
    rw [Document.depth] at hdepth
    refine Replays.container doubles h name rfl (by omega) hencode fun hpath hentries => ?_
    apply replay_entries doubles entries hpath hregular _ hentries
    rw [List.length_append, List.length_singleton]
    omega

theorem replay_values (doubles : Doubles δ) (values : List (Document δ)) {names : List Bytes}
    {context : FixupContext} (h : OnPath names context)
    (hregular : AllValuesAt RegularLeaf names values)
    (hdepth : names.length + valuesDepth values ≤ MAX_DEPTH)
    {encodeContext : EncodeContext Output}
    (hencode : encodeValues doubles (mapValuesAt (fixLeaf dateString) names values)
      context.encodeContext = .ok () encodeContext) :
    Replays doubles (valuesEvents values) names context encodeContext := by
  cases values with
  | nil =>
    cases hencode
    exact ⟨context, rfl, rfl, h⟩
  | cons value rest =>
    rw [Document.valuesDepth] at hdepth
    obtain ⟨_, between, hvalue, hrest⟩ := run_bind_eq_ok_iff.mp hencode
    obtain ⟨context', hrun, rfl, hpath⟩ :=
      replay_document doubles value h none hregular.1 (by omega) hvalue
    exact Replays.append doubles hrun
      (replay_values doubles rest hpath hregular.2 (by omega) hrest)

theorem replay_entries (doubles : Doubles δ) (entries : List (PlainString × Document δ))
    {names : List Bytes} {context : FixupContext} (h : OnPath names context)
    (hregular : AllEntriesAt RegularLeaf names entries)
    (hdepth : names.length + entriesDepth entries ≤ MAX_DEPTH)
    {encodeContext : EncodeContext Output}
    (hencode : encodeEntries doubles (mapEntriesAt (fixLeaf dateString) names entries)
      context.encodeContext = .ok () encodeContext) :
    Replays doubles (entriesEvents entries) names context encodeContext := by
  cases entries with
  | nil =>
    cases hencode
    exact ⟨context, rfl, rfl, h⟩
  | cons entry rest =>
    rw [Document.entriesDepth] at hdepth
    obtain ⟨_, between, hvalue, hrest⟩ := run_bind_eq_ok_iff.mp hencode
    obtain ⟨context', hrun, rfl, hpath⟩ :=
      replay_document doubles entry.2 h (some entry.1.bytes) hregular.1 (by omega) hvalue
    exact Replays.append doubles hrun
      (replay_entries doubles rest hpath hregular.2 (by omega) hrest)

end

/-! The whole report. -/

/-- The decoder finds the document in the text, and nothing behind it. -/
def Decodes (doubles : Doubles δ) (text : Bytes) (document : Document δ) : Prop :=
  ReadTo (parseDocument doubles fixupBuffers none text) (document.events none) []

theorem reads_text (doubles : Doubles δ) {document : Document δ}
    (hcontainer : document.isContainer = true) (hprinted : document.All (Leaf.Printed doubles)) :
    Reads (document.fits fixupBuffers)
      (parseDocument doubles fixupBuffers none (document.text doubles true 0))
      ((document.readBack doubles).events none) [] := by
  have hparse := parse_document doubles fixupBuffers (by decide) document hprinted none true 0 []
    (Or.inl hcontainer) (decodeFuel (document.text doubles true 0).length) (Nat.lt_succ_self _)
  rw [List.append_nil] at hparse
  exact hparse

theorem decodes_text (doubles : Doubles δ) {document : Document δ}
    (hcontainer : document.isContainer = true) (hprinted : document.All (Leaf.Printed doubles))
    (hfits : document.fits fixupBuffers = true) :
    Decodes doubles (document.text doubles true 0) (document.readBack doubles) :=
  (reads_text doubles hcontainer hprinted).readTo hfits

/-- The fixer writes what the decoder finds in a report, with the dates in it, if there is room
for it and for the character behind it. -/
theorem fixupCrashReport_eq (doubles : Doubles δ) {crashReport : Bytes} {document : Document δ}
    (hdecodes : Decodes doubles crashReport document) (hregular : Regular document)
    (hdepth : document.depth ≤ MAX_DEPTH)
    (hroom : ((fixDates dateString document).text doubles true 0).length <
      fixedReportLength crashReport) :
    fixupCrashReport doubles crashReport =
      .ok (some ((fixDates dateString document).text doubles true 0)) := by
  obtain ⟨hevents, hresult⟩ := hdecodes
  obtain ⟨encodeContext, hencode, htext, hcontainers⟩ :=
    encode_output_run doubles (fixDates dateString document) hroom.le
  obtain ⟨context, hreplay, rfl, hpath⟩ := replay_document doubles document
    (onPath_start (fixedReportLength crashReport)) none hregular (by simpa using hdepth) hencode
  have hend : endEncode context.encodeContext = .ok () context.encodeContext := by
    change endContainers context.encodeContext.isObject.length context.encodeContext = _
    rw [hcontainers]
    rfl
  have hrun : decodeReport doubles crashReport
      (FixupContext.start (fixedReportLength crashReport)) = .ok () context := by
    rw [decodeReport_eq, replayReport_eq, reportEvents, hevents, hresult, run_bind_ok hreplay]
    exact encode_run_ok hend
  unfold fixupCrashReport
  rw [hrun]
  dsimp only
  rw [htext, if_pos hroom]
  rfl

/-! Documents that are nested too deep. -/

def enterEvents (names : List Bytes) (events : List (Option Bytes × Event δ)) : List Bytes :=
  events.foldl (fun names event => enter names event.1 event.2) names

theorem enterEvents_append (names : List Bytes) (first second : List (Option Bytes × Event δ)) :
    enterEvents names (first ++ second) = enterEvents (enterEvents names first) second :=
  List.foldl_append

theorem openNames_eq (names : List Bytes) (fired : List (Fired δ)) :
    openNames names fired = enterEvents names (fired.map Fired.pair) := by
  induction fired generalizing names with
  | nil => rfl
  | cons first rest ih =>
    rw [openNames, ih]
    rfl

/-- The containers that are opened around elements are ended behind them. -/
theorem enterEvents_container {names : List Bytes} {name : Option Bytes} {event : Event δ}
    {events : List (Option Bytes × Event δ)}
    (hevent : enter names name event = names ++ [name.getD []])
    (hevents : enterEvents (names ++ [name.getD []]) events = names ++ [name.getD []]) :
    enterEvents names ((name, event) :: (events ++ [(none, .endContainer)])) = names := by
  change enterEvents (enter names name event) (events ++ [(none, .endContainer)]) = names
  rw [hevent, enterEvents_append, hevents]
  exact List.dropLast_concat

mutual

theorem enterEvents_document (names : List Bytes) (name : Option Bytes) (document : Document δ) :
    enterEvents names (document.events name) = names := by
  cases document with
  | leaf value =>
    cases value with
    | _ => rfl
  | array values => exact enterEvents_container rfl (enterEvents_values _ values)
  | object entries => exact enterEvents_container rfl (enterEvents_entries _ entries)

theorem enterEvents_values (names : List Bytes) (values : List (Document δ)) :
    enterEvents names (valuesEvents values) = names := by
  cases values with
  | nil => rfl
  | cons value rest =>
    rw [Document.valuesEvents, enterEvents_append, enterEvents_document, enterEvents_values]

theorem enterEvents_entries (names : List Bytes) (entries : List (PlainString × Document δ)) :
    enterEvents names (entriesEvents entries) = names := by
  cases entries with
  | nil => rfl
  | cons entry rest =>
    rw [Document.entriesEvents, enterEvents_append, enterEvents_document, enterEvents_entries]

end

/-- At some of the events so many containers are open. -/
def Reaches (names : List Bytes) (events : List (Option Bytes × Event δ)) (depth : Nat) : Prop :=
  ∃ first rest, events = first ++ rest ∧ depth ≤ (enterEvents names first).length

theorem Reaches.prepend {names : List Bytes} {events : List (Option Bytes × Event δ)}
    {depth : Nat} (before : List (Option Bytes × Event δ))
    (h : Reaches (enterEvents names before) events depth) :
    Reaches names (before ++ events) depth := by
  obtain ⟨first, rest, rfl, hdepth⟩ := h
  refine ⟨before ++ first, rest, (List.append_assoc _ _ _).symm, ?_⟩
  rw [enterEvents_append]
  exact hdepth

theorem Reaches.append {names : List Bytes} {events : List (Option Bytes × Event δ)}
    {depth : Nat} (h : Reaches names events depth) (behind : List (Option Bytes × Event δ)) :
    Reaches names (events ++ behind) depth := by
  obtain ⟨first, rest, rfl, hdepth⟩ := h
  exact ⟨first, rest ++ behind, List.append_assoc _ _ _, hdepth⟩

theorem Reaches.container {names : List Bytes} {name : Option Bytes} {event : Event δ}
    {events : List (Option Bytes × Event δ)} {depth : Nat}
    (hevent : enter names name event = names ++ [name.getD []])
    (h : Reaches (names ++ [name.getD []]) events (names.length + 1 + depth)) :
    Reaches names ((name, event) :: (events ++ [(none, .endContainer)]))
      (names.length + (depth + 1)) := by
  have hopened : enterEvents names [(name, event)] = names ++ [name.getD []] := hevent
  rw [← hopened] at h
  rw [Nat.add_comm depth 1, ← Nat.add_assoc]
  exact (h.append [(none, .endContainer)]).prepend [(name, event)]

mutual

theorem reaches_document (names : List Bytes) (name : Option Bytes) (document : Document δ) :
    Reaches names (document.events name) (names.length + document.depth) := by
  cases document with
  | leaf value => exact ⟨[], _, rfl, Nat.le_refl _⟩
  | array values =>
    have hvalues := reaches_values (names ++ [name.getD []]) values
    rw [List.length_append] at hvalues
    exact Reaches.container rfl hvalues
  | object entries =>
    have hentries := reaches_entries (names ++ [name.getD []]) entries
    rw [List.length_append] at hentries
    exact Reaches.container rfl hentries

theorem reaches_values (names : List Bytes) (values : List (Document δ)) :
    Reaches names (valuesEvents values) (names.length + Document.valuesDepth values) := by
  cases values with
  | nil => exact ⟨[], _, rfl, Nat.le_refl _⟩
  | cons value rest =>
    rw [Document.valuesEvents, Document.valuesDepth]
    rcases Nat.le_total (Document.valuesDepth rest) value.depth with h | h
    · rw [Nat.max_eq_left h]
      exact (reaches_document names none value).append _
    · rw [Nat.max_eq_right h]
      apply Reaches.prepend
      rw [enterEvents_document]
      exact reaches_values names rest

theorem reaches_entries (names : List Bytes) (entries : List (PlainString × Document δ)) :
    Reaches names (entriesEvents entries) (names.length + Document.entriesDepth entries) := by
  cases entries with
  | nil => exact ⟨[], _, rfl, Nat.le_refl _⟩
  | cons entry rest =>
    rw [Document.entriesEvents, Document.entriesDepth]
    rcases Nat.le_total (Document.entriesDepth rest) entry.2.depth with h | h
    · rw [Nat.max_eq_left h]
      exact (reaches_document names _ entry.2).append _
    · rw [Nat.max_eq_right h]
      apply Reaches.prepend
      rw [enterEvents_document]
      exact reaches_entries names rest

end

theorem decodeReport_of_fixed {doubles : Doubles δ} {crashReport text : Bytes}
    (h : fixupCrashReport doubles crashReport = .ok (some text)) :
    ∃ context, decodeReport doubles crashReport
      (FixupContext.start (fixedReportLength crashReport)) = .ok () context := by
  unfold fixupCrashReport at h
  cases hrun : decodeReport doubles crashReport
      (FixupContext.start (fixedReportLength crashReport)) with
  | ok result context => exact ⟨context, rfl⟩
  | error stop context =>
    rw [hrun] at h
    cases stop with
    | fault fault => cases h
    | error e =>
      dsimp only at h
      split at h
      · cases h
      · cases h

/-- The fixer gives a report back only if its names and strings fit, and if the object path has
a row for each of its containers. -/
theorem fits_of_fixed (doubles : Doubles δ) {document : Document δ} {text : Bytes}
    (hcontainer : document.isContainer = true) (hprinted : document.All (Leaf.Printed doubles))
    (h : fixupCrashReport doubles (document.text doubles true 0) = .ok (some text)) :
    document.fits fixupBuffers = true ∧ document.depth ≤ MAX_DEPTH := by
  have hreads := reads_text doubles hcontainer hprinted
  obtain ⟨context, hrun⟩ := decodeReport_of_fixed h
  rw [decodeReport_eq] at hrun
  obtain ⟨_, replayed, hreplay, hrest⟩ := run_bind_eq_ok_iff.mp hrun
  cases hfits : document.fits fixupBuffers with
  | false =>
    obtain ⟨e, herror⟩ := hreads.tooLong hfits
    rw [herror] at hrest
    cases hrest
  | true =>
    obtain ⟨hevents, -⟩ := hreads.readTo hfits
    obtain ⟨first, rest, hsplit, hdepth⟩ :=
      reaches_document [] none (document.readBack doubles)
    rw [readBack_depth, List.length_nil, Nat.zero_add] at hdepth
    rw [hsplit] at hevents
    obtain ⟨fired, behind, hfired, hfirst, -⟩ := List.map_eq_append_iff.mp hevents
    rw [reportEvents, hfired, replayReport_append] at hreplay
    obtain ⟨_, opened, hopen, -⟩ := run_bind_eq_ok_iff.mp hreplay
    have hbound := (onPath_replayReport doubles (onPath_start _) hopen).bound
    rw [openNames_eq, hfirst] at hbound
    exact ⟨rfl, hdepth.trans hbound⟩

end SentryCocoa.ReportFixer
