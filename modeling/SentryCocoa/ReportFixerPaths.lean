import SentryCocoa.ReportFixer
import SentryCocoa.JSONContainers

/-! Which elements the fixer compares with a path that ends before the comparison does. The
object path is an array with a depth; here it is the list of the names of the containers that
are open, and the paths are compared with it as lists. -/
namespace SentryCocoa.ReportFixer
open JSONCodec Library.Simulation

variable {δ : Type}

/-! The names of the open containers. -/

/-- The outermost container comes first. One without a name has the empty one. -/
def enter (names : List Bytes) (name : Option Bytes) : Event δ → List Bytes
  | .beginObject => names ++ [name.getD []]
  | .beginArray => names ++ [name.getD []]
  | .endContainer => names.dropLast
  | _ => names

def openNames (names : List Bytes) : List (Fired δ) → List Bytes
  | [] => names
  | fired :: rest => openNames (enter names fired.name fired.event) rest

/-- One of the containers stands where a date is expected. -/
def InsideDate (names : List Bytes) : Prop :=
  ∃ path ∈ datePaths, path.map cutName <+: names.map cutName

instance : DecidablePred InsideDate := fun _ => inferInstanceAs (Decidable (∃ _ ∈ _, _))

/-- The object path is as deep as the names are many, and has them in it. -/
structure OnPath (names : List Bytes) (context : FixupContext) : Prop where
  depth : context.currentDepth = names.length
  bound : names.length ≤ MAX_DEPTH
  rows : context.objectPath.length = MAX_DEPTH
  entries : context.objectPath.take names.length = names.map cutName

theorem onPath_start (fixedReportLength : Nat) :
    OnPath [] (FixupContext.start fixedReportLength) :=
  ⟨rfl, Nat.zero_le _, List.length_replicate, rfl⟩

/-! Comparisons. -/

theorem cutName_cutName (name : Bytes) : cutName (cutName name) = cutName name := by
  unfold cutName
  rw [List.take_take, Nat.min_self]

theorem objectPathAt_eq {names : List Bytes} {context : FixupContext} (h : OnPath names context)
    {i : Nat} (hi : i < names.length) :
    context.objectPathAt i = pure (cutName (names[i])) := by
  have hbound := h.bound
  have hentry : context.objectPath.getD i [] =
      (context.objectPath.take names.length).getD i [] := by
    rw [List.getD_eq_getElem?_getD, List.getD_eq_getElem?_getD, List.getElem?_take_of_lt hi]
  unfold FixupContext.objectPathAt
  rw [h.depth, if_pos ⟨hi, by omega⟩, hentry, h.entries, List.getD_eq_getElem?_getD,
    List.getElem?_map, List.getElem?_eq_getElem hi]
  rfl

/-- The comparison of the names that are left with the entries that are left. -/
def compareNames : List Bytes → List Bytes → Except PathFault Bool
  | [], _ => pure true
  | _ :: _, [] => throw .path
  | name :: names, entry :: path =>
    if cutName name ≠ cutName entry then pure false else compareNames names path

theorem matchesEntries_eq {names : List Bytes} {context : FixupContext}
    (h : OnPath names context) (path : List Bytes) (i count : Nat)
    (hcount : i + count = names.length) :
    matchesEntries context path i count = compareNames (names.drop i) (path.drop i) := by
  induction count generalizing i with
  | zero =>
    rw [List.drop_eq_nil_of_le (by omega)]
    rfl
  | succ count ih =>
    have hi : i < names.length := by omega
    rw [matchesEntries, objectPathAt_eq h hi, List.drop_eq_getElem_cons hi, pathAt]
    cases hpath : path[i]? with
    | none =>
      rw [List.drop_eq_nil_of_le (List.getElem?_eq_none_iff.mp hpath)]
      rfl
    | some entry =>
      obtain ⟨hlength, hentry⟩ := List.getElem?_eq_some_iff.mp hpath
      rw [List.drop_eq_getElem_cons hlength, hentry, compareNames, ← ih (i + 1) (by omega)]
      simp only [pure_bind, cutName_cutName]

theorem matchesPath_eq {names : List Bytes} {context : FixupContext} (h : OnPath names context)
    (path : List Bytes) (finalName : Option Bytes) :
    matchesPath context path finalName = compareNames (names ++ [finalName.getD []]) path := by
  have hentries := matchesEntries_eq h path 0 names.length (Nat.zero_add _)
  rw [List.drop_zero, List.drop_zero] at hentries
  rw [matchesPath, h.depth, hentries, pathAt]
  clear h hentries
  induction names generalizing path with
  | nil =>
    cases path with
    | nil => rfl
    | cons entry path =>
      rw [List.nil_append, compareNames, compareNames, compareNames]
      by_cases hname : cutName (finalName.getD []) = cutName entry
      · simp [hname]
      · simp [hname]
  | cons name names ih =>
    cases path with
    | nil => rfl
    | cons entry path =>
      rw [List.cons_append, compareNames, compareNames, ← ih path]
      split
      · rfl
      · rfl

theorem compareNames_eq (names path : List Bytes) :
    compareNames names path =
      if path.map cutName <+: names.map cutName ∧ path.length < names.length then throw .path
      else pure (decide (names.map cutName <+: path.map cutName)) := by
  induction names generalizing path with
  | nil => simp [compareNames]
  | cons name names ih =>
    cases path with
    | nil => simp [compareNames]
    | cons entry path =>
      rw [compareNames, ih]
      by_cases hname : cutName name = cutName entry
      · simp [hname, List.cons_prefix_cons]
      · simp [hname, Ne.symm hname, List.cons_prefix_cons]

/-- The names of an element and of the containers around it are those that a path begins
with. -/
def MatchesDate (names : List Bytes) : Prop :=
  ∃ path ∈ datePaths, names.map cutName <+: path.map cutName

instance : DecidablePred MatchesDate := fun _ => inferInstanceAs (Decidable (∃ _ ∈ _, _))

/-- The path is over before the last of the names is reached. -/
theorem tooShort_iff (names path : List Bytes) (finalName : Bytes) :
    (path.map cutName <+: (names ++ [finalName]).map cutName ∧
        path.length < (names ++ [finalName]).length) ↔
      path.map cutName <+: names.map cutName := by
  rw [List.map_append, List.map_singleton, List.prefix_concat_iff]
  constructor
  · rintro ⟨hwhole | hpath, hlength⟩
    · have := congrArg List.length hwhole
      simp at this hlength
      omega
    · exact hpath
  · intro hpath
    have := hpath.length_le
    simp at this ⊢
    exact ⟨Or.inr hpath, by omega⟩

/-- No path goes on from where another one may end. -/
theorem not_insideDate_of_matches {names : List Bytes} {path other : List Bytes}
    (hpath : path ∈ datePaths) (hother : other ∈ datePaths) (finalName : Bytes)
    (hmatches : (names ++ [finalName]).map cutName <+: path.map cutName) :
    ¬other.map cutName <+: names.map cutName := by
  intro hinside
  have hnames : other.map cutName <+: path.map cutName := by
    apply hinside.trans
    rw [List.map_append] at hmatches
    exact (List.prefix_append _ _).trans hmatches
  have hlength : names.length + 1 ≤ path.length := by
    simpa using hmatches.length_le
  have hshorter : other.length ≤ names.length := by
    simpa using hinside.length_le
  have hsame : ∀ path ∈ datePaths, ∀ other ∈ datePaths,
      other.map cutName <+: path.map cutName → other.length = path.length := by
    decide +kernel
  have := hsame path hpath other hother hnames
  omega

theorem matchesAPath_eq {names : List Bytes} {context : FixupContext} (h : OnPath names context)
    (name : Option Bytes) (paths : List (List Bytes)) (hpaths : paths ⊆ datePaths) :
    matchesAPath context name paths =
      if ∃ path ∈ paths, path.map cutName <+: names.map cutName then throw .path
      else pure (decide (∃ path ∈ paths,
        (names ++ [name.getD []]).map cutName <+: path.map cutName)) := by
  induction paths with
  | nil => simp [matchesAPath]
  | cons path paths ih =>
    rw [List.cons_subset] at hpaths
    have hpath : matchesPath context path name =
        if path.map cutName <+: names.map cutName then throw .path
        else pure (decide ((names ++ [name.getD []]).map cutName <+: path.map cutName)) := by
      rw [matchesPath_eq h, compareNames_eq]
      simp only [tooShort_iff]
    have hothers (hfound : (names ++ [name.getD []]).map cutName <+: path.map cutName) :
        ¬∃ other ∈ paths, other.map cutName <+: names.map cutName := by
      rintro ⟨other, hother, hprefix⟩
      exact not_insideDate_of_matches hpaths.1 (hpaths.2 hother) _ hfound hprefix
    rw [matchesAPath, hpath, ih hpaths.2]
    simp only [List.exists_mem_cons_iff]
    generalize (names ++ [name.getD []]).map cutName = whole at hothers ⊢
    by_cases hinside : path.map cutName <+: names.map cutName
    · simp only [hinside, true_or, if_true]
      rfl
    · by_cases hfound : whole <+: path.map cutName
      · simp [hinside, hfound, hothers hfound]
      · simp [hinside, hfound]

/-- The comparison of an integer's path, by the names of the containers around it. -/
theorem shouldFixDate_eq {names : List Bytes} {context : FixupContext} (h : OnPath names context)
    (name : Option Bytes) :
    shouldFixDate name context =
      if InsideDate names then .error (.fault .path) context
      else .ok (decide (MatchesDate (names ++ [name.getD []]))) context := by
  unfold shouldFixDate
  rw [matchesAPath_eq h name datePaths (List.Subset.refl _)]
  by_cases hinside : InsideDate names
  · rw [if_pos hinside]
    unfold InsideDate at hinside
    rw [if_pos hinside]
    rfl
  · rw [if_neg hinside]
    unfold InsideDate at hinside
    rw [if_neg hinside]
    rfl

/-! The callbacks. -/

theorem attempt_run (function : Encode Output Unit) (context : FixupContext) :
    ∃ result encodeContext, attempt function context =
      .ok result { context with encodeContext := encodeContext } := by
  unfold attempt
  cases function context.encodeContext with
  | ok _ encodeContext => exact ⟨none, encodeContext, rfl⟩
  | error e encodeContext => exact ⟨some e, encodeContext, rfl⟩

theorem attempt_ok {function : Encode Output Unit} {context : FixupContext}
    {encodeContext : EncodeContext Output}
    (h : function context.encodeContext = .ok () encodeContext) :
    attempt function context = .ok none { context with encodeContext := encodeContext } := by
  unfold attempt
  rw [h]

/-- The result of a callback does not depend on a read that is not allowed, and behind it the
object path is that of the names. -/
structure Accepts (names : List Bytes) (result : EStateM.Result Stop FixupContext Unit) : Prop where
  onPath : ∀ context, result = .ok () context → OnPath names context
  noFault : ∀ fault context, result ≠ .error (.fault fault) context

theorem OnPath.withEncodeContext {names : List Bytes} {context : FixupContext}
    (h : OnPath names context) (encodeContext : EncodeContext Output) :
    OnPath names { context with encodeContext := encodeContext } :=
  ⟨h.depth, h.bound, h.rows, h.entries⟩

theorem accepts_returnResult {names : List Bytes} {context : FixupContext}
    (h : OnPath names context) (result : Option JSONError) :
    Accepts names (returnResult result context) := by
  cases result with
  | none =>
    constructor
    · intro context' hresult
      cases hresult
      exact h
    · intro fault context' hresult
      cases hresult
  | some e =>
    constructor
    · intro context' hresult
      cases hresult
    · intro fault context' hresult
      cases hresult

theorem accepts_encode {names : List Bytes} {context : FixupContext} (h : OnPath names context)
    (function : Encode Output Unit) : Accepts names (encode function context) := by
  obtain ⟨result, encodeContext, hattempt⟩ := attempt_run function context
  unfold encode
  rw [run_bind_ok hattempt]
  exact accepts_returnResult (h.withEncodeContext encodeContext) result

theorem OnPath.enter {names : List Bytes} {context : FixupContext} (h : OnPath names context)
    (hdepth : names.length < MAX_DEPTH) (name : Bytes) :
    OnPath (names ++ [name])
      { context with
        objectPath := context.objectPath.set context.currentDepth (cutName name)
        currentDepth := context.currentDepth + 1 } := by
  have hrows := h.rows
  constructor
  · rw [List.length_append, List.length_singleton, ← h.depth]
  · rw [List.length_append, List.length_singleton]
    omega
  · rw [List.length_set, hrows]
  · rw [h.depth, List.length_append, List.length_singleton, List.take_add_one,
      List.take_set_of_le (Nat.le_refl _), h.entries,
      List.getElem?_set_self (by omega), List.map_append]
    rfl

theorem OnPath.leave {names : List Bytes} {context : FixupContext} (h : OnPath names context)
    (hdepth : 0 < context.currentDepth) :
    OnPath names.dropLast { context with currentDepth := context.currentDepth - 1 } := by
  have hbound := h.bound
  have hlength := h.depth
  constructor
  · rw [List.length_dropLast, ← h.depth]
  · rw [List.length_dropLast]
    omega
  · exact h.rows
  · have hdropped : names.map cutName = context.objectPath.take names.length := h.entries.symm
    have hfewer : min (names.length - 1) names.length = names.length - 1 := by omega
    rw [List.length_dropLast, List.map_dropLast, hdropped, List.dropLast_eq_take,
      List.take_take, List.length_take, h.rows, Nat.min_eq_left hbound, hfewer]

theorem increaseDepth_lt {names : List Bytes} {context : FixupContext} (h : OnPath names context)
    (hdepth : names.length < MAX_DEPTH) (name : Option Bytes) :
    ∃ context', increaseDepth name context = .ok true context' ∧
      context'.encodeContext = context.encodeContext ∧ OnPath (names ++ [name.getD []]) context' := by
  refine ⟨{ context with
    objectPath := context.objectPath.set context.currentDepth (cutName (name.getD []))
    currentDepth := context.currentDepth + 1 }, ?_, rfl, h.enter hdepth (name.getD [])⟩
  change (if context.currentDepth ≥ MAX_DEPTH then _ else _ : Fixup Bool) context = _
  rw [if_neg (by rw [h.depth]; omega)]
  rfl

theorem increaseDepth_full {names : List Bytes} {context : FixupContext} (h : OnPath names context)
    (hdepth : ¬names.length < MAX_DEPTH) (name : Option Bytes) :
    increaseDepth name context = .ok false context := by
  change (if context.currentDepth ≥ MAX_DEPTH then _ else _ : Fixup Bool) context = _
  rw [if_pos (by rw [h.depth]; omega)]
  rfl

theorem decreaseDepth_run {names : List Bytes} {context : FixupContext} (h : OnPath names context) :
    ∃ result context', decreaseDepth context = .ok result context' ∧
      context'.encodeContext = context.encodeContext ∧ OnPath names.dropLast context' := by
  by_cases hdepth : 0 < context.currentDepth
  · refine ⟨true, { context with currentDepth := context.currentDepth - 1 }, ?_, rfl,
      h.leave hdepth⟩
    change (if context.currentDepth ≤ 0 then _ else _ : Fixup Bool) context = _
    rw [if_neg (by omega)]
    rfl
  · have hnames : names = [] := by
      apply List.eq_nil_of_length_eq_zero
      rw [← h.depth]
      omega
    rw [hnames] at h ⊢
    refine ⟨false, context, ?_, rfl, h⟩
    change (if context.currentDepth ≤ 0 then _ else _ : Fixup Bool) context = _
    rw [if_pos (by omega)]
    rfl

theorem accepts_onBeginContainer {names : List Bytes} {context : FixupContext}
    (h : OnPath names context) (begin : Encode Output Unit) (name : Option Bytes) :
    Accepts (names ++ [name.getD []]) (onBeginContainer begin name context) := by
  obtain ⟨result, encodeContext, hattempt⟩ := attempt_run begin context
  have hpath := h.withEncodeContext encodeContext
  unfold onBeginContainer
  rw [run_bind_ok hattempt]
  by_cases hdepth : names.length < MAX_DEPTH
  · obtain ⟨context', hincrease, -, hpath'⟩ := increaseDepth_lt hpath hdepth name
    rw [run_bind_ok hincrease]
    exact accepts_returnResult hpath' result
  · rw [run_bind_ok (increaseDepth_full hpath hdepth name)]
    exact ⟨fun _ hresult => (nomatch hresult), fun _ _ hresult => (nomatch hresult)⟩

theorem accepts_onEndContainer {names : List Bytes} {context : FixupContext}
    (h : OnPath names context) : Accepts names.dropLast (onEndContainer context) := by
  obtain ⟨result, encodeContext, hattempt⟩ := attempt_run endContainer context
  obtain ⟨left, context', hdecrease, -, hpath⟩ :=
    decreaseDepth_run (h.withEncodeContext encodeContext)
  unfold onEndContainer
  rw [run_bind_ok hattempt, run_bind_ok hdecrease]
  exact accepts_returnResult hpath result

/-- The event is an integer in a container that stands where a date is expected. -/
def Overruns (names : List Bytes) (event : Event δ) : Prop :=
  (∃ value, event = .integerElement value) ∧ InsideDate names

theorem callbacks_overruns {names : List Bytes} {context : FixupContext}
    (h : OnPath names context) (doubles : Doubles δ) (name : Option Bytes) {event : Event δ}
    (hoverruns : Overruns names event) :
    callbacks doubles name event context = .error (.fault .path) context := by
  obtain ⟨⟨value, rfl⟩, hinside⟩ := hoverruns
  have hfix := shouldFixDate_eq h name
  rw [if_pos hinside] at hfix
  exact run_bind_error hfix

/-- Every other event is accepted, or refused with an error of the source. -/
theorem accepts_callbacks {names : List Bytes} {context : FixupContext}
    (h : OnPath names context) (doubles : Doubles δ) (name : Option Bytes) {event : Event δ}
    (hoverruns : ¬Overruns names event) :
    Accepts (enter names name event) (callbacks doubles name event context) := by
  cases event with
  | booleanElement value => exact accepts_encode h _
  | floatingPointElement value => exact accepts_encode h _
  | integerElement value =>
    have hfix := shouldFixDate_eq h name
    rw [if_neg fun hinside => hoverruns ⟨⟨value, rfl⟩, hinside⟩] at hfix
    have hrun : callbacks doubles name (.integerElement value) context = _ := run_bind_ok hfix
    rw [hrun]
    split
    · exact accepts_encode h _
    · exact accepts_encode h _
  | uintegerElement value => exact accepts_encode h _
  | nullElement => exact accepts_encode h _
  | stringElement value => exact accepts_encode h _
  | beginObject => exact accepts_onBeginContainer h _ name
  | beginArray => exact accepts_onBeginContainer h _ name
  | endContainer => exact accepts_onEndContainer h
  | endData => exact accepts_encode h _

/-! The run over a report. -/

/-- The callbacks on the events, until one of them stops the decoder. -/
def replayReport (doubles : Doubles δ) : List (Fired δ) → Fixup Unit
  | [] => pure ()
  | fired :: rest => do
    callbacks doubles fired.name fired.event
    replayReport doubles rest

theorem replayReport_append (doubles : Doubles δ) (first second : List (Fired δ)) :
    replayReport doubles (first ++ second) =
      replayReport doubles first >>= fun _ => replayReport doubles second := by
  induction first with
  | nil => simp [replayReport]
  | cons fired first ih => simp [replayReport, ih]

def fixupSimulation (doubles : Doubles δ) : MonadSimulation JSONError (Parse Unit δ) Fixup where
  Rel x y := y = do
    replayReport doubles (x ()).1
    Prod.fst <$> liftExcept (x ()).2
  pure a := rfl
  bind := by
    intro α β x y f g hx hf
    rw [hx]
    cases h : x () with
    | mk fired result =>
      cases result with
      | error e =>
        rw [Parse.bind_error h, bind_assoc]
        rfl
      | ok found =>
        obtain ⟨a, reader⟩ := found
        rw [Parse.bind_ok h, replayReport_append, bind_assoc, bind_assoc]
        congr 1
        funext _
        exact hf a
  throw e := rfl

/-- What the decoder finds in the report, until it finds an error. -/
def reportEvents (doubles : Doubles δ) (crashReport : Bytes) : List (Fired δ) :=
  (parseDocument doubles fixupBuffers none crashReport).1

theorem decodeReport_eq (doubles : Doubles δ) (crashReport : Bytes) :
    decodeReport doubles crashReport = (do
      replayReport doubles (reportEvents doubles crashReport)
      let _ ← liftExcept (parseDocument doubles fixupBuffers none crashReport).2
      callbacks doubles none .endData) := by
  have hcallback (name : Option Bytes) (event : Event δ) (bufferPtr : Bytes) :
      (fixupSimulation doubles).Rel (Parse.note Prod.mk name event bufferPtr)
        (decoderCallback doubles name event bufferPtr) := by
    change decoderCallback doubles name event bufferPtr = _
    simp [Parse.note, replayReport, decoderCallback]
    rfl
  have hdecode := (decode_rel doubles fixupBuffers (fixupSimulation doubles) hcallback
    (decodeFuel crashReport.length)).1 none crashReport
  unfold decodeReport
  rw [hdecode]
  simp only [bind_assoc, bind_map_left]
  rfl

/-- A run reads behind a path at the first event that overruns it, if no callback stops the
decoder before. -/
theorem replayReport_fault_iff (doubles : Doubles δ) {names : List Bytes}
    {context : FixupContext} (h : OnPath names context) (events : List (Fired δ)) :
    (∃ fault context', replayReport doubles events context = .error (.fault fault) context') ↔
      ∃ first next rest context', events = first ++ next :: rest ∧
        replayReport doubles first context = .ok () context' ∧
          Overruns (openNames names first) next.event := by
  induction events generalizing names context with
  | nil =>
    constructor
    · rintro ⟨fault, context', hrun⟩
      cases hrun
    · rintro ⟨first, next, rest, context', hsplit, -⟩
      simp at hsplit
  | cons fired events ih =>
    by_cases hoverruns : Overruns names fired.event
    · have hfault := callbacks_overruns h doubles fired.name hoverruns
      constructor
      · intro _
        exact ⟨[], fired, events, context, rfl, rfl, hoverruns⟩
      · intro _
        exact ⟨.path, context, run_bind_error hfault⟩
    · have haccepts := accepts_callbacks h doubles fired.name hoverruns
      rw [replayReport]
      cases hcallback : callbacks doubles fired.name fired.event context with
      | error stop context' =>
        rw [run_bind_error hcallback]
        constructor
        · rintro ⟨fault, context'', hstop⟩
          cases hstop
          exact absurd hcallback (haccepts.noFault fault context')
        · rintro ⟨first, next, rest, context'', hsplit, hrun, hnext⟩
          cases first with
          | nil =>
            rw [List.nil_append, List.cons.injEq] at hsplit
            rw [← hsplit.1] at hnext
            exact absurd hnext hoverruns
          | cons head first =>
            rw [List.cons_append, List.cons.injEq] at hsplit
            rw [replayReport, ← hsplit.1, run_bind_error hcallback] at hrun
            cases hrun
      | ok result context' =>
        rw [run_bind_ok hcallback, ih (haccepts.onPath context' hcallback)]
        constructor
        · rintro ⟨first, next, rest, context'', rfl, hrun, hnext⟩
          refine ⟨fired :: first, next, rest, context'', rfl, ?_, hnext⟩
          rw [replayReport, run_bind_ok hcallback, hrun]
        · rintro ⟨first, next, rest, context'', hsplit, hrun, hnext⟩
          cases first with
          | nil =>
            rw [List.nil_append, List.cons.injEq] at hsplit
            rw [← hsplit.1] at hnext
            exact absurd hnext hoverruns
          | cons head first =>
            rw [List.cons_append, List.cons.injEq] at hsplit
            obtain ⟨rfl, hsplit⟩ := hsplit
            rw [replayReport, run_bind_ok hcallback] at hrun
            exact ⟨first, next, rest, context'', hsplit, hrun, hnext⟩

theorem onPath_replayReport (doubles : Doubles δ) {names : List Bytes}
    {context context' : FixupContext} (h : OnPath names context) {events : List (Fired δ)}
    (hrun : replayReport doubles events context = .ok () context') :
    OnPath (openNames names events) context' := by
  induction events generalizing names context with
  | nil =>
    cases hrun
    exact h
  | cons fired events ih =>
    rw [replayReport] at hrun
    cases hcallback : callbacks doubles fired.name fired.event context with
    | error stop context'' =>
      rw [run_bind_error hcallback] at hrun
      cases hrun
    | ok result context'' =>
      rw [run_bind_ok hcallback] at hrun
      have hoverruns : ¬Overruns names fired.event := by
        intro hoverruns
        rw [callbacks_overruns h doubles fired.name hoverruns] at hcallback
        cases hcallback
      have haccepts := accepts_callbacks h doubles fired.name hoverruns
      exact ih (haccepts.onPath context'' hcallback) hrun

/-- The callbacks let the decoder go on behind these events. -/
def Accepted (doubles : Doubles δ) (crashReport : Bytes) (events : List (Fired δ)) : Prop :=
  ∃ context, replayReport doubles events
    (FixupContext.start (fixedReportLength crashReport)) = .ok () context

theorem fixupCrashReport_comparison_iff (doubles : Doubles δ) (crashReport : Bytes) :
    (∃ fault, fixupCrashReport doubles crashReport = .error (.comparison fault)) ↔
      ∃ fault context, decodeReport doubles crashReport
        (FixupContext.start (fixedReportLength crashReport)) = .error (.fault fault) context := by
  unfold fixupCrashReport
  cases decodeReport doubles crashReport
      (FixupContext.start (fixedReportLength crashReport)) with
  | ok result context =>
    dsimp only
    split
    · exact ⟨fun ⟨_, h⟩ => (nomatch h), fun ⟨_, _, h⟩ => (nomatch h)⟩
    · exact ⟨fun ⟨_, h⟩ => (nomatch h), fun ⟨_, _, h⟩ => (nomatch h)⟩
  | error stop context =>
    cases stop with
    | fault fault => exact ⟨fun _ => ⟨fault, context, rfl⟩, fun _ => ⟨fault, rfl⟩⟩
    | error e =>
      dsimp only
      split
      · exact ⟨fun ⟨_, h⟩ => (nomatch h), fun ⟨_, _, h⟩ => (nomatch h)⟩
      · exact ⟨fun ⟨_, h⟩ => (nomatch h), fun ⟨_, _, h⟩ => (nomatch h)⟩

/-- The end of the report does not compare anything. -/
theorem decodeReport_fault_iff (doubles : Doubles δ) (crashReport : Bytes)
    {context : FixupContext} (h : OnPath [] context) :
    (∃ fault context', decodeReport doubles crashReport context =
        .error (.fault fault) context') ↔
      ∃ fault context', replayReport doubles (reportEvents doubles crashReport) context =
        .error (.fault fault) context' := by
  rw [decodeReport_eq]
  cases hrun : replayReport doubles (reportEvents doubles crashReport) context with
  | error stop context' => rw [run_bind_error hrun]
  | ok result context' =>
    have hpath := onPath_replayReport doubles h hrun
    have hend := accepts_encode hpath endEncode
    rw [run_bind_ok hrun]
    cases (parseDocument doubles fixupBuffers none crashReport).2 with
    | error e => exact ⟨fun ⟨_, _, h⟩ => (nomatch h), fun ⟨_, _, h⟩ => (nomatch h)⟩
    | ok found =>
      constructor
      · rintro ⟨fault, context'', hfault⟩
        exact absurd hfault (hend.noFault fault context'')
      · rintro ⟨fault, context'', hfault⟩
        cases hfault

/-- Every comparison stays within its paths where no integer that the decoder gets to lies
inside of a container at the place of a date. -/
theorem comparesWithinPaths_iff (doubles : Doubles δ) (crashReport : Bytes) :
    (∀ fault, fixupCrashReport doubles crashReport ≠ .error (.comparison fault)) ↔
      ∀ first next rest, reportEvents doubles crashReport = first ++ next :: rest →
        Accepted doubles crashReport first → ¬Overruns (openNames [] first) next.event := by
  have hstart := onPath_start (fixedReportLength crashReport)
  have hfault := (fixupCrashReport_comparison_iff doubles crashReport).trans
    ((decodeReport_fault_iff doubles crashReport hstart).trans
      (replayReport_fault_iff doubles hstart (reportEvents doubles crashReport)))
  constructor
  · rintro hsafe first next rest hsplit ⟨context, hrun⟩ hoverruns
    obtain ⟨fault, h⟩ := hfault.mpr ⟨first, next, rest, context, hsplit, hrun, hoverruns⟩
    exact hsafe fault h
  · intro hcondition fault h
    obtain ⟨first, next, rest, context, hsplit, hrun, hoverruns⟩ := hfault.mp ⟨fault, h⟩
    exact hcondition first next rest hsplit ⟨context, hrun⟩ hoverruns

/-- The timestamp of the report is an object with an integer in it. -/
def exampleTimestamp : Bytes :=
  ascii "\x7b\"report\":\x7b\"timestamp\":\x7b\"a\":1\x7d\x7d\x7d"

theorem exampleTimestamp_overruns :
    fixupCrashReport exampleDoubles exampleTimestamp = .error (.comparison .path) := by
  decide +kernel

end SentryCocoa.ReportFixer
