import SentryCocoa.ReportFixerDocuments

/-! The reports that the writer leaves behind, and what the fixer makes of them. The report of a
crash in the handling of a crash has the report of the first one in it, as far as that one was
written. -/
namespace SentryCocoa.ReportFixer
open JSONCodec JSONCodec.Document Library.Simulation

variable {δ : Type}

/-! What the writer writes. -/

def plainName (name : String) (h : escapable (ascii name) = true) : PlainString := ⟨ascii name, h⟩

def SENTRY_REPORT_VERSION : PlainString := plainName "3.2.0" (by decide)

/-- What `writeReportInfo` is given, and the time that it takes from the clock. -/
structure ReportInfo where
  reportID : Option PlainString
  processName : Option PlainString
  timestamp : Int64
  type : PlainString

/-- A string that is missing is written as null. -/
def stringElement : Option PlainString → Document δ
  | none => .leaf .null
  | some value => .leaf (.string value)

theorem escapable_version : escapable (ascii "version") = true := by decide

def ReportInfo.entries (info : ReportInfo) : List (PlainString × Document δ) :=
  [(plainName "version" escapable_version, .leaf (.string SENTRY_REPORT_VERSION)),
    (plainName "id" (by decide), stringElement info.reportID),
    (plainName "process_name" (by decide), stringElement info.processName),
    (plainName "timestamp" (by decide), .leaf (.integer info.timestamp)),
    (plainName "type" (by decide), .leaf (.string info.type))]

def reportName : PlainString := plainName "report" (by decide)

def recrashReportName : PlainString := plainName "recrash_report" (by decide)

/-- The report of the first crash, whose file may end anywhere, also in the information, of
which it has so many entries then. -/
structure CutReport (δ : Type) where
  before : List (PlainString × Document δ)
  info : Option (ReportInfo × Nat)
  sections : List (PlainString × Document δ)
  before_named : ∀ entry ∈ before, entry.1.bytes ≠ reportName.bytes
  sections_named : ∀ entry ∈ sections, entry.1.bytes ≠ reportName.bytes

def CutReport.infoEntries (report : CutReport δ) : List (PlainString × Document δ) :=
  report.info.toList.map fun found => (reportName, .object (found.1.entries.take found.2))

def CutReport.document (report : CutReport δ) : Document δ :=
  .object (report.before ++ (report.infoEntries ++ report.sections))

structure WrittenReport (δ : Type) where
  recrash : Option (CutReport δ)
  info : ReportInfo
  sections : List (PlainString × Document δ)
  sections_named : ∀ entry ∈ sections,
    entry.1.bytes ≠ reportName.bytes ∧ entry.1.bytes ≠ recrashReportName.bytes

def WrittenReport.recrashEntries (report : WrittenReport δ) : List (PlainString × Document δ) :=
  report.recrash.toList.map fun recrash => (recrashReportName, recrash.document)

def WrittenReport.document (report : WrittenReport δ) : Document δ :=
  .object (report.recrashEntries ++ (reportName, .object report.info.entries) :: report.sections)

/-- The text of the report in its file. -/
def WrittenReport.text (doubles : Doubles δ) (report : WrittenReport δ) : Bytes :=
  report.document.text doubles true 0

/-! Places that no date is at or below. -/

theorem cutName_eq_iff {name entry : Bytes} (h : entry.length < MAX_NAME_LENGTH) :
    cutName name = cutName entry ↔ name = entry := by
  unfold cutName
  rw [List.take_of_length_le h.le]
  constructor
  · intro hcut
    have hlength := congrArg List.length hcut
    rw [List.length_take] at hlength
    rwa [List.take_of_length_le (by omega)] at hcut
  · rintro rfl
    exact List.take_of_length_le h.le

/-- Neither does a path to a date begin so, nor does the place lie below that of a date. -/
def OffDates (path : List Bytes) : Prop :=
  ∀ date ∈ datePaths, ¬path.map cutName <+: date.map cutName ∧
    ¬date.map cutName <+: path.map cutName

theorem OffDates.append {path : List Bytes} (h : OffDates path) (name : Bytes) :
    OffDates (path ++ [name]) := by
  intro date hdate
  obtain ⟨hbefore, hbelow⟩ := h date hdate
  rw [List.map_append]
  refine ⟨fun hprefix => hbefore ((List.prefix_append _ _).trans hprefix), fun hprefix => ?_⟩
  rcases List.prefix_concat_iff.mp hprefix with hwhole | hprefix
  · rw [hwhole] at hbefore
    exact hbefore (List.prefix_append _ _)
  · exact hbelow hprefix

theorem offDates_root {name : Bytes} (hreport : name ≠ reportName.bytes)
    (hrecrash : name ≠ recrashReportName.bytes) : OffDates [[], name] := by
  have hname : cutName name ≠ cutName (ascii "report") :=
    fun h => hreport ((cutName_eq_iff (by decide)).mp h)
  have hname' : cutName name ≠ cutName (ascii "recrash_report") :=
    fun h => hrecrash ((cutName_eq_iff (by decide)).mp h)
  intro date hdate
  simp only [datePaths, List.mem_cons, List.not_mem_nil, or_false] at hdate
  rcases hdate with rfl | rfl
  · simp [List.cons_prefix_cons, hname, Ne.symm hname]
  · simp [List.cons_prefix_cons, hname', Ne.symm hname']

theorem offDates_recrash {name : Bytes} (hreport : name ≠ reportName.bytes) :
    OffDates [[], recrashReportName.bytes, name] := by
  have hname : cutName name ≠ cutName (ascii "report") :=
    fun h => hreport ((cutName_eq_iff (by decide)).mp h)
  have hother : cutName recrashReportName.bytes ≠ cutName (ascii "report") := by decide
  have hsame : cutName recrashReportName.bytes = cutName (ascii "recrash_report") := by decide
  intro date hdate
  simp only [datePaths, List.mem_cons, List.not_mem_nil, or_false] at hdate
  rcases hdate with rfl | rfl
  · simp [List.cons_prefix_cons, hother, Ne.symm hother]
  · simp [List.cons_prefix_cons, hsame, hname, Ne.symm hname]

section

variable {names : List Bytes} {name : Option Bytes} (h : OffDates (names ++ [name.getD []]))

include h

theorem OffDates.regularLeaf (value : Leaf δ) : RegularLeaf names name value := by
  cases value with
  | integer value =>
    constructor
    · rintro ⟨date, hdate, hprefix⟩
      apply (h date hdate).2
      rw [List.map_append]
      exact hprefix.trans (List.prefix_append _ _)
    · rintro ⟨date, hdate, hprefix⟩
      exact absurd hprefix (h date hdate).1
  | _ => exact trivial

theorem OffDates.not_mem : names ++ [name.getD []] ∉ datePaths :=
  fun hmem => (h _ hmem).1 (List.prefix_refl _)

end

/-! Which integers of a report the fixer takes. -/

theorem regular_offDates {names : List Bytes} {name : Option Bytes}
    (h : OffDates (names ++ [name.getD []])) (document : Document δ) :
    document.AllAt RegularLeaf names name :=
  @allAt_of_all _ OffDates _ (fun _ => True) (fun _ name h => h.append name)
    (fun _ _ value h _ => h.regularLeaf value) _ _ _ h (all_of_forall (fun _ => trivial) document)

theorem regular_info (names : List Bytes) (hinside : ¬InsideDate names)
    (hpath : names ++ [ascii "timestamp"] ∈ datePaths) (info : ReportInfo) :
    ∀ entry ∈ info.entries (δ := δ), entry.2.AllAt RegularLeaf names (some entry.1.bytes) := by
  have hstring (names : List Bytes) (name : Option Bytes) (value : Option PlainString) :
      (stringElement (δ := δ) value).AllAt RegularLeaf names name := by
    cases value with
    | none => exact trivial
    | some value => exact trivial
  intro entry hentry
  simp only [ReportInfo.entries, List.mem_cons, List.not_mem_nil, or_false] at hentry
  rcases hentry with rfl | rfl | rfl | rfl | rfl
  · exact trivial
  · exact hstring _ _ _
  · exact hstring _ _ _
  · exact ⟨hinside, fun _ => hpath⟩
  · exact trivial

theorem CutReport.regular (report : CutReport δ) :
    report.document.AllAt RegularLeaf [[]] (some recrashReportName.bytes) := by
  apply (allEntriesAt_iff _ _ _).mpr
  intro entry hentry
  rcases List.mem_append.mp hentry with hbefore | hentry
  · exact regular_offDates (offDates_recrash (report.before_named entry hbefore)) entry.2
  · rcases List.mem_append.mp hentry with hinfo | hsection
    · obtain ⟨found, -, rfl⟩ := List.mem_map.mp hinfo
      have hinfo := regular_info (δ := δ) [[], ascii "recrash_report", ascii "report"]
        (by decide) (by decide) found.1
      apply (allEntriesAt_iff _ _ _).mpr
      exact fun entry hentry => hinfo entry (List.mem_of_mem_take hentry)
    · exact regular_offDates (offDates_recrash (report.sections_named entry hsection)) entry.2

theorem WrittenReport.regular (report : WrittenReport δ) : Regular report.document := by
  apply (allEntriesAt_iff _ _ _).mpr
  intro entry hentry
  rcases List.mem_append.mp hentry with hrecrash | hentry
  · obtain ⟨recrash, -, rfl⟩ := List.mem_map.mp hrecrash
    exact recrash.regular
  · rcases List.mem_cons.mp hentry with rfl | hsection
    · have hinfo := regular_info (δ := δ) [[], ascii "report"] (by decide) (by decide) report.info
      exact (allEntriesAt_iff _ _ _).mpr hinfo
    · obtain ⟨hreport, hrecrash⟩ := report.sections_named entry hsection
      exact regular_offDates (offDates_root hreport hrecrash) entry.2

/-! The length of the report. -/

section

local instance lawfulBEq_path : LawfulBEq (List Bytes) := inferInstance

/-- A date in quotes in place of an integer. -/
def dateWeight (names : List Bytes) (name : Option Bytes) : Leaf δ → Nat
  | .integer _ => if names ++ [name.getD []] ∈ datePaths then 21 else 0
  | _ => 0

end

theorem signedDecimal_length_pos (value : Int) : 0 < (signedDecimal value).length := by
  have hdecimal := List.length_pos_of_ne_nil (decimal_ne_nil value.natAbs)
  unfold signedDecimal
  split
  · rw [List.length_append]
    omega
  · exact hdecimal

theorem growsBy_fixLeaf (doubles : Doubles δ) (names : List Bytes) (name : Option Bytes)
    (value : Leaf δ) : GrowsBy doubles (fixLeaf dateString) dateWeight names name value := by
  cases value with
  | integer value =>
    unfold GrowsBy fixLeaf dateWeight
    dsimp only
    split
    · have hdate := escape_dateString_length value
      have hquote : (ascii "\"").length = 1 := by decide
      have hinteger := signedDecimal_length_pos value.toInt
      rw [Leaf.text, Leaf.text, quoted]
      simp only [List.length_append]
      omega
    · exact Nat.le_refl _
  | _ => exact Nat.le_refl _

theorem dateWeight_offDates {names : List Bytes} {name : Option Bytes}
    (h : OffDates (names ++ [name.getD []])) (document : Document δ) :
    document.weightAt dateWeight names name = 0 := by
  refine @weightAt_eq_zero _ OffDates _ (fun _ name h => h.append name) ?_ _ _ document h
  intro names name value h
  cases value with
  | integer value => exact if_neg h.not_mem
  | _ => rfl

theorem dateWeight_entries {names : List Bytes} {entries : List (PlainString × Document δ)}
    (h : ∀ entry ∈ entries, OffDates (names ++ [entry.1.bytes])) :
    entriesWeightAt dateWeight names entries = 0 := by
  rw [entriesWeightAt_eq]
  apply List.sum_eq_zero
  intro weight hweight
  obtain ⟨entry, hentry, rfl⟩ := List.mem_map.mp hweight
  exact dateWeight_offDates (h entry hentry) entry.2

/-- There is one integer in the information about a report. -/
theorem dateWeight_info (names : List Bytes) (info : ReportInfo) :
    entriesWeightAt (δ := δ) dateWeight names info.entries ≤ 21 := by
  have hstring (name : Option Bytes) (value : Option PlainString) :
      (stringElement (δ := δ) value).weightAt dateWeight names name = 0 := by
    cases value with
    | none => rfl
    | some value => rfl
  have hinteger : dateWeight (δ := δ) names (some (ascii "timestamp")) (.integer info.timestamp) ≤
      21 := by
    unfold dateWeight
    dsimp only
    split
    · exact Nat.le_refl _
    · exact Nat.zero_le _
  simpa [ReportInfo.entries, entriesWeightAt, hstring, weightAt, dateWeight, plainName] using hinteger

theorem CutReport.dateWeight_le (report : CutReport δ) :
    report.document.weightAt dateWeight [[]] (some recrashReportName.bytes) ≤ 21 := by
  have hbefore := @dateWeight_entries _ [[], recrashReportName.bytes] _
    fun entry hentry => offDates_recrash (report.before_named entry hentry)
  have hsections := @dateWeight_entries _ [[], recrashReportName.bytes] _
    fun entry hentry => offDates_recrash (report.sections_named entry hentry)
  have hinfo : entriesWeightAt dateWeight [[], recrashReportName.bytes] report.infoEntries ≤ 21 := by
    unfold CutReport.infoEntries
    cases report.info with
    | none => exact Nat.zero_le _
    | some found =>
      have hcut := entriesWeightAt_take (δ := δ) dateWeight
        [[], recrashReportName.bytes, reportName.bytes] found.2 found.1.entries
      exact hcut.trans (dateWeight_info _ found.1)
  change entriesWeightAt dateWeight [[], recrashReportName.bytes] (report.before ++
    (report.infoEntries ++ report.sections)) ≤ 21
  rw [entriesWeightAt_append, entriesWeightAt_append, hbefore, hsections]
  omega

theorem WrittenReport.dateWeight_le (report : WrittenReport δ) :
    report.document.weightAt dateWeight [] none ≤ 42 := by
  have hsections := @dateWeight_entries _ [[]] _ fun entry hentry =>
    offDates_root (report.sections_named entry hentry).1 (report.sections_named entry hentry).2
  have hinfo := dateWeight_info (δ := δ) [[], reportName.bytes] report.info
  have hrecrash : entriesWeightAt dateWeight [[]] report.recrashEntries ≤ 21 := by
    unfold WrittenReport.recrashEntries
    cases report.recrash with
    | none => exact Nat.zero_le _
    | some recrash => exact recrash.dateWeight_le
  change entriesWeightAt dateWeight [[]] (report.recrashEntries ++
    (reportName, .object report.info.entries) :: report.sections) ≤ 42
  rw [entriesWeightAt_append, entriesWeightAt, hsections]
  change _ + (entriesWeightAt dateWeight [[], reportName.bytes] report.info.entries + 0) ≤ 42
  omega

/-- With the information about it alone, a report is long enough for the dates. -/
theorem WrittenReport.length_ge (doubles : Doubles δ) (report : WrittenReport δ) :
    86 ≤ (report.text doubles).length := by
  have hkeys := entriesText_length_ge doubles (0 + 1 + 1) true (report.info.entries (δ := δ))
  have hsum : ((report.info.entries (δ := δ)).map fun entry =>
      4 * (0 + 1 + 1) + 5 + (escape entry.1.bytes).length).sum = 99 := by
    rw [ReportInfo.entries]
    simp only [List.map_cons, List.map_nil]
    rfl
  have hinfo : (reportName, Document.object (report.info.entries (δ := δ))) ∈
      report.recrashEntries ++ (reportName, .object report.info.entries) :: report.sections :=
    List.mem_append_right _ List.mem_cons_self
  have hentry := length_le_entriesText doubles true (0 + 1) true hinfo
  rw [hsum] at hkeys
  unfold WrittenReport.text WrittenReport.document
  rw [Document.text] at hentry ⊢
  simp only [List.length_append] at hentry ⊢
  omega

/-! The report behind the decoder. -/

theorem readBack_info (doubles : Doubles δ) (info : ReportInfo) :
    ((info.entries (δ := δ)).map fun entry => (entry.1, entry.2.readBack doubles)) =
      info.entries := by
  have hstring (value : Option PlainString) :
      (stringElement (δ := δ) value).readBack doubles = stringElement value := by
    cases value with
    | none => rfl
    | some value => rfl
  simp only [ReportInfo.entries, List.map_cons, List.map_nil, hstring]
  rfl

def readBackEntries (doubles : Doubles δ) (entries : List (PlainString × Document δ)) :
    List (PlainString × Document δ) :=
  entries.map fun entry => (entry.1, entry.2.readBack doubles)

theorem readBackEntries_named {doubles : Doubles δ} {entries : List (PlainString × Document δ)}
    (p : Bytes → Prop) (h : ∀ entry ∈ entries, p entry.1.bytes) :
    ∀ entry ∈ readBackEntries doubles entries, p entry.1.bytes := by
  intro entry hentry
  obtain ⟨written, hwritten, rfl⟩ := List.mem_map.mp hentry
  exact h written hwritten

theorem readBack_object (doubles : Doubles δ) (entries : List (PlainString × Document δ)) :
    (Document.object entries).readBack doubles = .object (readBackEntries doubles entries) := by
  unfold readBack readBackEntries
  rw [Document.map, mapEntries_eq]
  rfl

def CutReport.readBack (doubles : Doubles δ) (report : CutReport δ) : CutReport δ where
  before := readBackEntries doubles report.before
  info := report.info
  sections := readBackEntries doubles report.sections
  before_named := readBackEntries_named (fun name => name ≠ reportName.bytes) report.before_named
  sections_named :=
    readBackEntries_named (fun name => name ≠ reportName.bytes) report.sections_named

def WrittenReport.readBack (doubles : Doubles δ) (report : WrittenReport δ) : WrittenReport δ where
  recrash := report.recrash.map (CutReport.readBack doubles)
  info := report.info
  sections := readBackEntries doubles report.sections
  sections_named := readBackEntries_named
    (fun name => name ≠ reportName.bytes ∧ name ≠ recrashReportName.bytes) report.sections_named

theorem CutReport.document_readBack (doubles : Doubles δ) (report : CutReport δ) :
    (report.readBack doubles).document = report.document.readBack doubles := by
  have hinfo : readBackEntries doubles report.infoEntries = report.infoEntries := by
    unfold CutReport.infoEntries
    cases report.info with
    | none => rfl
    | some found =>
      change [(reportName, (Document.object (found.1.entries.take found.2)).readBack doubles)] =
        [(reportName, Document.object (found.1.entries.take found.2))]
      rw [readBack_object, readBackEntries, List.map_take, readBack_info]
  unfold CutReport.document
  rw [readBack_object, readBackEntries, List.map_append, List.map_append]
  change _ = Document.object (readBackEntries doubles report.before ++
    (readBackEntries doubles report.infoEntries ++ readBackEntries doubles report.sections))
  rw [hinfo]
  rfl

theorem WrittenReport.document_readBack (doubles : Doubles δ) (report : WrittenReport δ) :
    (report.readBack doubles).document = report.document.readBack doubles := by
  have hrecrash : readBackEntries doubles report.recrashEntries =
      (report.readBack doubles).recrashEntries := by
    unfold WrittenReport.recrashEntries WrittenReport.readBack
    cases report.recrash with
    | none => rfl
    | some recrash =>
      change [(recrashReportName, recrash.document.readBack doubles)] =
        [(recrashReportName, (recrash.readBack doubles).document)]
      rw [recrash.document_readBack]
  have hinfo : (Document.object (report.info.entries (δ := δ))).readBack doubles =
      .object report.info.entries := by
    rw [readBack_object, readBackEntries, readBack_info]
  unfold WrittenReport.document
  rw [readBack_object, readBackEntries, List.map_append, List.map_cons, hinfo, ← hrecrash]
  rfl

/-! The fixed report. -/

theorem keepsRoom_fixLeaf {date : Int64 → PlainString}
    (hdate : ∀ timestamp, (escape (date timestamp).bytes).length ≤ 20) :
    KeepsRoom (δ := δ) (fixLeaf date) fixupBuffers.stringBufferLength := by
  have hroom : 20 < fixupBuffers.stringBufferLength := by decide
  intro names name value h
  cases value with
  | integer value =>
    unfold fixLeaf
    dsimp only
    split
    · rw [Leaf.fits]
      exact decide_eq_true ((hdate value).trans_lt hroom)
    · rfl
  | _ => exact h

theorem takes_fixLeaf (doubles : Doubles δ) (date : Int64 → PlainString) :
    Takes (fixLeaf date) (Stable doubles) (Stable doubles) := by
  intro names name value h
  cases value with
  | integer value =>
    unfold fixLeaf
    dsimp only
    split
    · exact ⟨rfl, trivial⟩
    · exact h
  | _ => exact h

/-- Every report that is not nested too deep, and whose names and strings the decoder has room
for, is fixed within the buffer. What is read of the text is what is read of the report, with
the dates of the timestamps in place of them. -/
theorem fixupCrashReport_written (doubles : Doubles δ) (hdoubles : doubles.Reprints)
    (report : WrittenReport δ) (hprinted : report.document.All (Leaf.Printed doubles))
    (hdepth : report.document.depth ≤ MAX_DEPTH)
    (hfits : report.document.fits fixupBuffers = true) :
    ∃ text document, ∃ date : Int64 → PlainString,
      fixupCrashReport doubles (report.text doubles) = .ok (some text) ∧
        text.length < fixedReportLength (report.text doubles) ∧
        Decodes doubles (report.text doubles) document ∧
        Decodes doubles text (fixDates date document) ∧
        ∀ timestamp, HasDate timestamp.toInt →
          IsDateOf (date timestamp).bytes timestamp.toInt := by
  have hread := decodes_text doubles rfl hprinted hfits
  have hstable := readBack_stable hdoubles hprinted
  have hdates := all_mapAt _ (takes_fixLeaf doubles dateString) [] none hstable
  have hdatesFit := fits_mapAt _ (keepsRoom_fixLeaf escape_dateString_length) [] none
    (readBack_fits doubles hfits)
  have hregular := (report.readBack doubles).regular
  have hweight := (report.readBack doubles).dateWeight_le
  rw [report.document_readBack doubles] at hregular hweight
  have hroom : ((fixDates dateString (report.document.readBack doubles)).text doubles true
      0).length < fixedReportLength (report.text doubles) := by
    have hgrows := text_mapAt_length (fixLeaf dateString) doubles true [] none
      (allAt_of_forall (fun names name value _ => growsBy_fixLeaf doubles names name value) [] none
        hstable) 0
    have hshorter := readBack_length hdoubles hprinted true 0
    have hlong := report.length_ge doubles
    unfold fixDates fixedReportLength
    unfold WrittenReport.text at *
    omega
  have hdatesRead := @decodes_text _ doubles (fixDates dateString
    (report.document.readBack doubles)) rfl (printed_of_stable hdates) hdatesFit
  have hsame : (fixDates dateString (report.document.readBack doubles)).readBack doubles =
      fixDates dateString (report.document.readBack doubles) := readBack_of_stable hdates
  rw [hsame] at hdatesRead
  refine ⟨_, _, dateString, fixupCrashReport_eq doubles hread hregular ?_ hroom, hroom, hread,
    hdatesRead, ?_⟩
  · rw [readBack_depth]
    exact hdepth
  · intro timestamp h
    rw [dateString_bytes]
    exact utcStringFromTimestamp_isDateOf h

theorem exampleDoubles_reprints : exampleDoubles.Reprints := by
  constructor
  · intro value body hnan htext hhead
    exact ⟨rfl, htext⟩
  · intro value body hnan htext
    have hminus : (exampleDoubles.snprintf value).head? = some '-'.toUInt8 := by rw [htext]; rfl
    cases hminus

theorem exampleDoubles_printed (value : Leaf Unit) : value.Printed exampleDoubles := by
  cases value with
  | floatingPoint value =>
    have hshort : (ascii "0").length < 50 := by decide
    exact fun _ => ⟨'0'.toUInt8, [], by decide, rfl, Or.inl rfl, hshort⟩
  | _ => exact trivial

/-- A report with one section, which is what the app has set as the user. -/
def exampleReport (user : Document Unit) : WrittenReport Unit where
  recrash := none
  info := ⟨none, none, 1700000000, plainName "standard" (by decide)⟩
  sections := [(plainName "user" (by decide), user)]
  sections_named := by
    have hname : ascii "user" ≠ reportName.bytes ∧ ascii "user" ≠ recrashReportName.bytes := by
      decide
    intro entry hentry
    rw [List.mem_singleton.mp hentry]
    exact hname

theorem fixupCrashReport_written_example :
    ∃ text document, ∃ date : Int64 → PlainString,
      fixupCrashReport exampleDoubles ((exampleReport (.object [])).text exampleDoubles) =
          .ok (some text) ∧
        text.length <
          fixedReportLength ((exampleReport (.object [])).text exampleDoubles) ∧
        Decodes exampleDoubles ((exampleReport (.object [])).text exampleDoubles) document ∧
        Decodes exampleDoubles text (fixDates date document) ∧
        ∀ timestamp, HasDate timestamp.toInt →
          IsDateOf (date timestamp).bytes timestamp.toInt :=
  fixupCrashReport_written exampleDoubles exampleDoubles_reprints (exampleReport (.object []))
    (all_of_forall exampleDoubles_printed _) (by decide +kernel) (by decide +kernel)

/-- Arrays in arrays. -/
def nested : Nat → Document Unit
  | 0 => .array []
  | count + 1 => .array [nested count]

def longString : PlainString where
  bytes := List.replicate 112500 'a'.toUInt8
  plain := by
    apply List.all_eq_true.mpr
    intro c hc
    rw [List.eq_of_mem_replicate hc]
    decide

theorem user_fits {user : Document Unit} {buffers : DecodeBuffers}
    (h : (exampleReport user).document.fits buffers = true) : user.fits buffers = true :=
  @fits_of_mem _ _ (plainName "user" (by decide), user) _ h
    (List.mem_append_right _ (List.mem_cons_of_mem _ List.mem_cons_self))

theorem longString_not_fits :
    ¬(exampleReport (.leaf (.string longString))).document.fits fixupBuffers = true := by
  have hescape : escape longString.bytes = longString.bytes := by
    apply escape_of_unescaped
    intro c hc
    rw [List.eq_of_mem_replicate hc]
    decide
  have hlength : (escape longString.bytes).length = 112500 := by
    rw [hescape]
    exact List.length_replicate
  intro hfits
  have huser := user_fits hfits
  rw [Document.fits, Leaf.fits, hlength] at huser
  exact absurd (of_decide_eq_true huser) (by decide)

/-- Neither a report that is nested too deep nor one with a long string is fixed. -/
theorem exampleReport_not_fixed :
    (∀ text, fixupCrashReport exampleDoubles ((exampleReport (nested 100)).text exampleDoubles) ≠
        .ok (some text)) ∧
      ∀ text, fixupCrashReport exampleDoubles
        ((exampleReport (.leaf (.string longString))).text exampleDoubles) ≠ .ok (some text) := by
  have hdeep : ¬(exampleReport (nested 100)).document.depth ≤ MAX_DEPTH := by decide +kernel
  constructor
  · intro text h
    exact hdeep (fits_of_fixed exampleDoubles rfl (all_of_forall exampleDoubles_printed _) h).2
  · intro text h
    exact longString_not_fits
      (fits_of_fixed exampleDoubles rfl (all_of_forall exampleDoubles_printed _) h).1

end SentryCocoa.ReportFixer
