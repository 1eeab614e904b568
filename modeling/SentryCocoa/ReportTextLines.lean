import SentryCocoa.BufferedReader
import SentryCocoa.JSONRoundTrip

/-! A text file in a crash report: its lines are the elements of an array. -/
namespace SentryCocoa.ReportTextLines
open SentryCocoa.JSONCodec SentryCocoa.Library.Delimiter SentryCocoa.Library.Simulation
open SentryCocoa.CrashFileUtils (CallResult)
open SentryCocoa.BufferedReader (SentryCrashBufferedReader openBufferedReader readUntilChar
  scans_readUntilChar flatten_blocks length_scan_le scan_ne_nil_of_flatten searchesRight_line
  right_readUntilChar_iff unread_openBufferedReader)

variable {ω : Type}

/-- A zero takes the place of the last byte that was read. -/
def element (chunk : Bytes) : Bytes := cString (chunk.take (chunk.length - 1))

/-- One turn of the loop of `addTextLinesFromFile`: what is copied, and the reader behind it. -/
def readLine (reader : SentryCrashBufferedReader) (results : Nat → CallResult) :
    Bytes × SentryCrashBufferedReader :=
  (readUntilChar reader '\n'.toUInt8 1024 results).2

theorem readLine_unread (reader : SentryCrashBufferedReader) (results : Nat → CallResult) :
    (readLine reader results).1 ++ (readLine reader results).2.unread = reader.unread :=
  (scans_readUntilChar reader '\n'.toUInt8 1024 results).2.1

theorem readLine_lt {reader : SentryCrashBufferedReader} {results : Nat → CallResult}
    (h : ¬(readLine reader results).1.length ≤ 0) :
    (readLine reader results).2.unread.length < reader.unread.length := by
  rw [← readLine_unread reader results, List.length_append]
  omega

/-- The loop of `addTextLinesFromFile`, with what the calls of `read` do in each of its turns. -/
def addLines (reader : SentryCrashBufferedReader) (results : Nat → Nat → CallResult) :
    Encode ω Unit :=
  if (readLine reader (results 0)).1.length ≤ 0 then pure ()
  else do
    let _ ← failed (addStringElement none (some (element (readLine reader (results 0)).1)))
    addLines (readLine reader (results 0)).2 fun i => results (i + 1)
termination_by reader.unread.length
decreasing_by
  rename_i hsome
  exact readLine_lt hsome

/-- A file that cannot be opened leaves no trace. What the functions of the encoder return is
ignored. -/
def addTextLinesFromFile (name : Option Bytes) (file : Option Bytes) (opened : CallResult)
    (results : Nat → Nat → CallResult) : Encode ω Unit :=
  match file with
  | none => pure ()
  | some file => do
    let _ ← failed (beginArray name)
    addLines (openBufferedReader file 1023 opened) results
    let _ ← failed endContainer

/-- A file whose reads do not fail, with how much each of them reads at most. -/
def delivering (most : Nat → Nat → Nat) : Nat → Nat → CallResult :=
  fun turn read => .upTo (most turn read)

/-- What is written is the text of an array whose elements are the lines of the file, of which
those that are longer than the buffer are split. -/
def WritesLines (name : Option Bytes) (file : Bytes) (opened : CallResult)
    (most : Nat → Nat → Nat) (context : EncodeContext Bytes) : Prop :=
  ∃ elements : List PlainString,
    Splits 1023 (lines '\n'.toUInt8 file) (elements.map PlainString.bytes) ∧
    ∃ context', addTextLinesFromFile name (some file) opened (delivering most) context =
        .ok () context' ∧
      context'.userData = context.userData ++ (context.introduction name ++
        (Tree.array (elements.map Tree.string)).text context.prettyPrint context.containerLevel)

/-- Every line has its newline, fits into the buffer with it, and has no byte that the encoder
refuses. -/
def TextFits (file : Bytes) : Prop :=
  Terminated '\n'.toUInt8 file ∧
    ∀ line ∈ lines '\n'.toUInt8 file, line.length ≤ 1023 ∧ escapable line = true

/-! ## What is read -/

/-- What the turns of the loop read. -/
def chunks (reader : SentryCrashBufferedReader) (results : Nat → Nat → CallResult) :
    List Bytes :=
  if (readLine reader (results 0)).1.length ≤ 0 then []
  else (readLine reader (results 0)).1 ::
    chunks (readLine reader (results 0)).2 fun i => results (i + 1)
termination_by reader.unread.length
decreasing_by
  rename_i hsome
  exact readLine_lt hsome

def addChunks : List Bytes → Encode ω Unit
  | [] => pure ()
  | chunk :: rest => do
    let _ ← failed (addStringElement none (some (element chunk)))
    addChunks rest

theorem addLines_eq (reader : SentryCrashBufferedReader) (results : Nat → Nat → CallResult) :
    (addLines reader results : Encode ω Unit) = addChunks (chunks reader results) := by
  induction reader, results using chunks.induct with
  | case1 reader results hnone =>
    rw [addLines, chunks, if_pos hnone, if_pos hnone]
    rfl
  | case2 reader results hsome ih =>
    rw [addLines, chunks, if_neg hsome, if_neg hsome, ih]
    rfl

section

variable {reader : SentryCrashBufferedReader} {results : Nat → CallResult}

theorem readLine_eq_scan (reader : SentryCrashBufferedReader) (results : Nat → CallResult) :
    (readLine reader results).1 = (BufferedReader.scan '\n'.toUInt8 1024
      (reader.data :: BufferedReader.blocks reader.bufferLength results reader.rest)).2 :=
  (Prod.mk.inj (scans_readUntilChar reader '\n'.toUInt8 1024 results).1).2

theorem length_readLine_le : (readLine reader results).1.length ≤ 1024 := by
  rw [readLine_eq_scan]
  exact length_scan_le _ _ _

theorem flatten_data_blocks (hbuffer : 0 < reader.bufferLength)
    (hresults : ∀ i, results i ≠ .error) :
    (reader.data :: BufferedReader.blocks reader.bufferLength results reader.rest).flatten =
      reader.unread := by
  rw [List.flatten_cons, flatten_blocks hbuffer results reader.rest hresults,
    SentryCrashBufferedReader.unread]

/-- The loop ends when the file is read to its end. -/
theorem unread_eq_nil (hbuffer : 0 < reader.bufferLength) (hresults : ∀ i, results i ≠ .error)
    (h : (readLine reader results).1.length ≤ 0) : reader.unread = [] := by
  by_contra hsome
  rw [← flatten_data_blocks hbuffer hresults] at hsome
  have hcopied := scan_ne_nil_of_flatten (show '\n'.toUInt8 ≠ 0 by decide)
    (show 0 < 1024 by decide) hsome
  rw [← readLine_eq_scan] at hcopied
  exact hcopied (List.length_eq_zero_iff.mp (Nat.le_zero.mp h))

/-- A line that fits is read with its newline. -/
theorem readLine_line {line behind : Bytes} (hbuffer : 0 < reader.bufferLength)
    (hresults : ∀ i, results i ≠ .error) (hzero : 0 ∉ line) (hline : '\n'.toUInt8 ∉ line)
    (hfits : line.length ≤ 1023) (h : reader.unread = line ++ '\n'.toUInt8 :: behind) :
    (readLine reader results).1 = line ++ ['\n'.toUInt8] ∧
      (readLine reader results).2.unread = behind := by
  have hflatten := flatten_data_blocks hbuffer hresults
  have hwanted : upTo '\n'.toUInt8 (reader.unread.take 1024) = line ++ ['\n'.toUInt8] := by
    rw [h, List.take_append, List.take_of_length_le (by omega), upTo_append_of_not_mem hline,
      List.take_cons (by omega), upTo_cons_self]
  have hright := (right_readUntilChar_iff ⟨reader, [], none⟩ ⟨'\n'.toUInt8, 1024, results⟩).mpr (by
    refine ⟨searchesRight_line (show '\n'.toUInt8 ≠ 0 by decide) hzero hline (Nat.lt_succ_of_le hfits)
      (hflatten.trans h), ?_⟩
    have hupTo := @length_upTo_le _ _ '\n'.toUInt8 (reader.unread.take 1024)
    rw [List.length_take] at hupTo
    change _ ≤ (reader.data :: BufferedReader.blocks _ results reader.rest).flatten.length
    rw [hflatten]
    change (upTo '\n'.toUInt8 (reader.unread.take 1024)).length ≤ _
    omega)
  have hcopied : (readLine reader results).1 = line ++ ['\n'.toUInt8] := hright.1.trans hwanted
  refine ⟨hcopied, ?_⟩
  have hunread := readLine_unread reader results
  rw [hcopied, h, List.append_assoc, List.append_cancel_left_eq] at hunread
  exact (List.cons.inj hunread).2

end

section

variable {reader : SentryCrashBufferedReader} {results : Nat → Nat → CallResult}

/-- The turns divide the file, and none of them reads more than the buffer holds. -/
theorem chunks_spec (hbuffer : 0 < reader.bufferLength)
    (hresults : ∀ turn i, results turn i ≠ .error) :
    (chunks reader results).flatten = reader.unread ∧
      ∀ chunk ∈ chunks reader results, 0 < chunk.length ∧ chunk.length ≤ 1024 := by
  induction reader, results using chunks.induct with
  | case1 reader results hnone =>
    rw [chunks, if_pos hnone, unread_eq_nil hbuffer (hresults 0) hnone]
    exact ⟨rfl, nofun⟩
  | case2 reader results hsome ih =>
    have hlength : (readLine reader (results 0)).2.bufferLength = reader.bufferLength :=
      (scans_readUntilChar reader '\n'.toUInt8 1024 (results 0)).2.2
    obtain ⟨hflatten, hall⟩ := ih (hlength ▸ hbuffer) fun turn => hresults (turn + 1)
    rw [chunks, if_neg hsome, List.flatten_cons, hflatten, readLine_unread]
    refine ⟨rfl, fun chunk hchunk => ?_⟩
    rcases List.mem_cons.mp hchunk with rfl | hmem
    · exact ⟨Nat.not_le.mp hsome, length_readLine_le⟩
    · exact hall chunk hmem

/-- Text that fits is read line by line. -/
theorem chunks_of_textFits (hbuffer : 0 < reader.bufferLength)
    (hresults : ∀ turn i, results turn i ≠ .error) (h : TextFits reader.unread) :
    (chunks reader results).map element = lines '\n'.toUInt8 reader.unread := by
  induction reader, results using chunks.induct with
  | case1 reader results hnone =>
    rw [chunks, if_pos hnone, unread_eq_nil hbuffer (hresults 0) hnone]
    rfl
  | case2 reader results hsome ih =>
    have hlength : (readLine reader (results 0)).2.bufferLength = reader.bufferLength :=
      (scans_readUntilChar reader '\n'.toUInt8 1024 (results 0)).2.2
    have hunread := readLine_unread reader (results 0)
    obtain ⟨hterminated, hlines⟩ := h
    rcases hterminated.cases with hnil | ⟨line, behind, hline, hfile, hbehind⟩
    · rw [hnil, List.append_eq_nil_iff] at hunread
      rw [hunread.1, List.length_nil] at hsome
      exact absurd (Nat.le_refl 0) hsome
    · rw [hfile, lines_append_cons hline] at hlines
      obtain ⟨hfits, hplain⟩ := hlines line List.mem_cons_self
      have hzero : 0 ∉ line := by
        intro hmem
        have hescape := List.all_eq_true.mp hplain 0 hmem
        exact absurd hescape (by decide)
      obtain ⟨hchunk, hrest⟩ := readLine_line hbuffer (hresults 0) hzero hline hfits hfile
      have hih := ih (hlength ▸ hbuffer) (fun turn => hresults (turn + 1)) (by
        rw [hrest]
        exact ⟨hbehind, fun line hmem => hlines line (List.mem_cons_of_mem _ hmem)⟩)
      rw [chunks, if_neg hsome, List.map_cons, hih, hrest, hfile, lines_append_cons hline, hchunk,
        element, List.length_append, List.length_singleton, Nat.add_sub_cancel, List.take_left,
        cString_of_escapable hplain]

end

/-! ## What is written -/

theorem exists_plain {strings : List Bytes} (h : ∀ string ∈ strings, escapable string = true) :
    ∃ elements : List PlainString, elements.map PlainString.bytes = strings := by
  induction strings with
  | nil => exact ⟨[], rfl⟩
  | cons string strings ih =>
    obtain ⟨elements, helements⟩ := ih fun other hother => h other (List.mem_cons_of_mem _ hother)
    refine ⟨⟨string, h string List.mem_cons_self⟩ :: elements, ?_⟩
    rw [List.map_cons, helements]

theorem map_bytes_injective {elements others : List PlainString}
    (h : elements.map PlainString.bytes = others.map PlainString.bytes) : elements = others := by
  refine List.map_injective_iff.mpr ?_ h
  intro a b hab
  cases a
  cases b
  cases hab
  rfl

/-- Ignoring what a function returns that succeeds. -/
theorem ignore_bind {function next : Encode ω Unit} {context context' : EncodeContext ω}
    (h : function context = .ok () context') :
    (failed function >>= fun _ => next) context = next context' := by
  have hfailed : failed function context = .ok false context' := by
    unfold failed
    rw [h]
  change EStateM.bind _ _ _ = _
  unfold EStateM.bind
  rw [hfailed]

/-- When the strings can be written, they are written as the elements of the array are. -/
theorem addChunks_eq {chunks : List Bytes} {elements : List PlainString}
    (h : chunks.map element = elements.map PlainString.bytes) {context : EncodeContext Bytes}
    (hcollect : context.handler = collect) {containers : List Bool}
    (hcontainers : context.isObject = false :: containers) :
    addChunks chunks context = encodeTreeValues (elements.map Tree.string) context := by
  induction chunks generalizing elements context with
  | nil =>
    rw [List.map_nil] at h
    rw [List.map_eq_nil_iff.mp h.symm]
    rfl
  | cons chunk chunks ih =>
    cases elements with
    | nil => cases h
    | cons string elements =>
      obtain ⟨hchunk, hrest⟩ := List.cons.inj h
      have hfits : nameFits context.isObject none = true := by
        rw [hcontainers]
        rfl
      obtain ⟨inner, hrun, hinner⟩ := encodeTree_run none (.string string) context hcollect hfits
      have hadd : addStringElement none (some (element chunk)) context = .ok () inner := by
        rw [hchunk]
        exact hrun
      rw [addChunks, ignore_bind hadd, List.map_cons, encodeTreeValues, run_bind_ok hrun]
      exact ih hrest (hinner.handler.trans hcollect) (hinner.isObject.trans hcontainers)

theorem addTextLines_eq {name : Option Bytes} {file : Bytes} {opened : CallResult}
    {results : Nat → Nat → CallResult} {elements : List PlainString}
    (h : (chunks (openBufferedReader file 1023 opened) results).map element =
      elements.map PlainString.bytes) {context : EncodeContext Bytes}
    (hcollect : context.handler = collect) (hname : nameFits context.isObject name = true) :
    ∃ context', addTextLinesFromFile name (some file) opened results context = .ok () context' ∧
      context'.userData = context.userData ++ (context.introduction name ++
        (Tree.array (elements.map Tree.string)).text context.prettyPrint
          context.containerLevel) := by
  have hbegin := @beginContainer_run false (ascii "[") name context hcollect hname
  obtain ⟨inner, hvalues, hinner⟩ := encodeTreeValues_run (elements.map Tree.string)
    (context.begun false (context.introduction name ++ ascii "[")) hcollect rfl
  have hlines : addLines (openBufferedReader file 1023 opened) results
      (context.begun false (context.introduction name ++ ascii "[")) = .ok () inner := by
    have hsame := @addChunks_eq _ _ h
      (context.begun false (context.introduction name ++ ascii "[")) hcollect _ rfl
    rw [addLines_eq]
    exact hsame.trans hvalues
  have hend := endContainer_run (hinner.handler.trans hcollect) hinner.isObject
  obtain ⟨context', htree, hencoded⟩ :=
    encodeTree_run name (.array (elements.map Tree.string)) context hcollect hname
  rw [encodeTree, beginArray, run_bind_ok hbegin, run_bind_ok hvalues, hend] at htree
  refine ⟨context', ?_, hencoded.userData⟩
  rw [addTextLinesFromFile, beginArray, ignore_bind hbegin, run_bind_ok hlines]
  exact (ignore_bind hend).trans htree

/-! ## What the text says -/

theorem valuesEvents_strings (elements : List PlainString) :
    (valuesEvents (elements.map Tree.string) : List (Option Bytes × Event Unit)) =
      elements.map fun string => (none, .stringElement string.bytes) := by
  induction elements with
  | nil => rfl
  | cons string elements ih =>
    rw [List.map_cons, valuesEvents, ih]
    rfl

theorem exists_buffer (elements : List PlainString) :
    ∃ length, ∀ larger, length ≤ larger →
      valuesFit ⟨0, larger⟩ (elements.map Tree.string) = true := by
  induction elements with
  | nil => exact ⟨0, fun _ _ => rfl⟩
  | cons string elements ih =>
    obtain ⟨length, hlength⟩ := ih
    refine ⟨max length ((escape string.bytes).length + 1), fun larger hlarger => ?_⟩
    rw [List.map_cons, valuesFit, hlength larger (by omega), Bool.and_true]
    exact decide_eq_true (show (escape string.bytes).length < larger by omega)

/-- The text of an array of strings is that of no other such array. -/
theorem text_strings_injective {elements others : List PlainString} {prettyPrint : Bool}
    {level : Nat} (h : (Tree.array (elements.map Tree.string)).text prettyPrint level =
      (Tree.array (others.map Tree.string)).text prettyPrint level) : elements = others := by
  obtain ⟨length, hlength⟩ := exists_buffer elements
  obtain ⟨length', hlength'⟩ := exists_buffer others
  have hread := (parse_tree exampleDoubles ⟨0, max length length'⟩ (.array (elements.map Tree.string))
    none (hlength _ (Nat.le_max_left _ _)) prettyPrint level [] (Or.inl rfl) _
    (Nat.lt_succ_self _)).1
  have hread' := (parse_tree exampleDoubles ⟨0, max length length'⟩ (.array (others.map Tree.string))
    none (hlength' _ (Nat.le_max_right _ _)) prettyPrint level [] (Or.inl rfl) _
    (Nat.lt_succ_self _)).1
  rw [h] at hread
  have hevents := hread.symm.trans hread'
  rw [Tree.events, Tree.events, valuesEvents_strings, valuesEvents_strings] at hevents
  have hstrings := List.append_cancel_right (List.cons.inj hevents).2
  apply map_bytes_injective
  have hinjective : Function.Injective fun string : Bytes =>
      ((none, .stringElement string) : Option Bytes × Event Unit) := by
    intro a b hab
    cases hab
    rfl
  apply List.map_injective_iff.mpr hinjective
  rw [List.map_map, List.map_map]
  exact hstrings

/-- Every byte but the newlines is in an element. -/
theorem escapable_of_splits {file : Bytes} {elements : List PlainString}
    (h : Splits 1023 (lines '\n'.toUInt8 file) (elements.map PlainString.bytes)) :
    escapable file = true := by
  apply List.all_eq_true.mpr
  intro byte hbyte
  by_cases hnewline : byte = '\n'.toUInt8
  · subst hnewline
    rfl
  · have hmem : byte ∈ (elements.map PlainString.bytes).flatten := by
      rw [h.spec.1, flatten_lines]
      exact List.mem_filter.mpr ⟨hbyte, decide_eq_true hnewline⟩
    obtain ⟨string, hstring, hin⟩ := List.mem_flatten.mp hmem
    obtain ⟨plain, _, rfl⟩ := List.mem_map.mp hstring
    exact List.all_eq_true.mp plain.plain byte hin

/-- A chunk of text without zeros loses its last byte and nothing else. -/
theorem element_of_escapable {chunk : Bytes} (h : escapable chunk = true) :
    escapable (element chunk) = true ∧ (element chunk).length = chunk.length - 1 := by
  have htake : escapable (chunk.take (chunk.length - 1)) = true :=
    List.all_eq_true.mpr fun byte hbyte =>
      List.all_eq_true.mp h byte (List.mem_of_mem_take hbyte)
  unfold element
  rw [cString_of_escapable htake, List.length_take]
  exact ⟨htake, by omega⟩

theorem length_flatten_element {cs : List Bytes} (h : ∀ chunk ∈ cs, 0 < chunk.length ∧
    escapable chunk = true) : (cs.map element).flatten.length + cs.length = cs.flatten.length := by
  induction cs with
  | nil => rfl
  | cons chunk cs ih =>
    obtain ⟨hpos, hplain⟩ := h chunk List.mem_cons_self
    have hrest := ih fun other hother => h other (List.mem_cons_of_mem _ hother)
    rw [List.map_cons, List.flatten_cons, List.flatten_cons, List.length_append,
      List.length_append, (element_of_escapable hplain).2, List.length_cons]
    omega

/-- Each chunk costs a byte, and only newlines may be lost: there is a chunk for each newline
and none besides. -/
theorem textFits_of_splits {file : Bytes} {cs : List Bytes} (hflatten : cs.flatten = file)
    (hcs : ∀ chunk ∈ cs, 0 < chunk.length ∧ chunk.length ≤ 1024)
    (hplain : escapable file = true)
    (h : Splits 1023 (lines '\n'.toUInt8 file) (cs.map element)) : TextFits file := by
  have hchunk : ∀ chunk ∈ cs, escapable chunk = true := by
    intro chunk hmem
    rw [← hflatten] at hplain
    exact List.all_eq_true.mpr fun byte hbyte =>
      List.all_eq_true.mp hplain byte (List.mem_flatten_of_mem hmem hbyte)
  obtain ⟨hbytes, hcount, hsame⟩ := h.spec
  have hlength := length_flatten_element fun chunk hmem => ⟨(hcs chunk hmem).1, hchunk chunk hmem⟩
  have hlines := @length_flatten_lines _ _ '\n'.toUInt8 file
  have hnewlines := @count_le_length_lines _ _ '\n'.toUInt8 file
  rw [hbytes, hflatten] at hlength
  rw [List.length_map] at hcount hsame
  have helements := hsame (by omega)
  refine ⟨hnewlines.2 (by omega), fun line hline => ?_⟩
  rw [← helements] at hline
  obtain ⟨chunk, hmem, rfl⟩ := List.mem_map.mp hline
  obtain ⟨hescapable, hless⟩ := element_of_escapable (hchunk chunk hmem)
  have hfits := (hcs chunk hmem).2
  exact ⟨by omega, hescapable⟩

section

variable (name : Option Bytes) {file : Bytes} (opened : CallResult) (most : Nat → Nat → Nat)
  {context : EncodeContext Bytes} (hcollect : context.handler = collect)
  (hname : nameFits context.isObject name = true)
include hcollect hname

theorem textFits_of_writesLines (h : WritesLines name file opened most context) :
    TextFits file := by
  obtain ⟨hunread, hbuffer⟩ := unread_openBufferedReader file 1023 opened
  obtain ⟨hflatten, hcs⟩ := @chunks_spec (openBufferedReader file 1023 opened) (delivering most)
    (by rw [hbuffer]; decide) fun _ _ => nofun
  rw [hunread] at hflatten
  obtain ⟨elements, hsplits, context', hrun, htext⟩ := h
  have hplain := escapable_of_splits hsplits
  obtain ⟨strings, hstrings⟩ := @exists_plain
    ((chunks (openBufferedReader file 1023 opened) (delivering most)).map element) (by
      intro string hstring
      obtain ⟨chunk, hmem, rfl⟩ := List.mem_map.mp hstring
      refine (element_of_escapable (List.all_eq_true.mpr fun byte hbyte => ?_)).1
      rw [← hflatten] at hplain
      exact List.all_eq_true.mp hplain byte (List.mem_flatten_of_mem hmem hbyte))
  obtain ⟨context'', hrun', htext'⟩ := addTextLines_eq hstrings.symm hcollect hname
  rw [hrun] at hrun'
  cases hrun'
  rw [htext] at htext'
  have hsame := text_strings_injective (List.append_cancel_left (List.append_cancel_left htext'))
  rw [hsame, hstrings] at hsplits
  exact textFits_of_splits hflatten hcs hplain hsplits

theorem writesLines_of_textFits (h : TextFits file) :
    WritesLines name file opened most context := by
  obtain ⟨hunread, hbuffer⟩ := unread_openBufferedReader file 1023 opened
  have hlines := @chunks_of_textFits (openBufferedReader file 1023 opened) (delivering most)
    (by rw [hbuffer]; decide) (fun _ _ => nofun) (hunread.symm ▸ h)
  rw [hunread] at hlines
  obtain ⟨elements, helements⟩ := exists_plain fun line hline => (h.2 line hline).2
  obtain ⟨context', hrun, htext⟩ := addTextLines_eq (hlines.trans helements.symm) hcollect hname
  refine ⟨elements, ?_, context', hrun, htext⟩
  rw [helements]
  exact Splits.refl 1023 _

end

/-- The elements of the array are the lines of the file exactly when each of them ends with a
newline, fits into the buffer and can be written. -/
theorem writesLines_iff_textFits (name : Option Bytes) (file : Bytes) (opened : CallResult)
    (most : Nat → Nat → Nat) (context : EncodeContext Bytes) (hcollect : context.handler = collect)
    (hname : nameFits context.isObject name = true) :
    WritesLines name file opened most context ↔ TextFits file :=
  ⟨textFits_of_writesLines name opened most hcollect hname,
    writesLines_of_textFits name opened most hcollect hname⟩

theorem writesLines_iff_textFits_twoLines :
    WritesLines none [97, 10, 98, 10] (.upTo 1022) (fun _ _ => 1022) (beginEncode true collect []) ∧
      TextFits [97, 10, 98, 10] := by
  have hfits : TextFits [97, 10, 98, 10] := ⟨Or.inr rfl, by decide⟩
  exact ⟨(writesLines_iff_textFits none [97, 10, 98, 10] (.upTo 1022) (fun _ _ => 1022)
    (beginEncode true collect []) rfl rfl).mpr hfits, hfits⟩

/-- The last line loses its last byte when no newline follows on it. -/
theorem lastLine_not_written :
    (endState (addTextLinesFromFile none (some [97, 98]) (.upTo 1022)
      (delivering fun _ _ => 1022) (beginEncode false collect []))).userData = ascii "[\"a\"]" ∧
      ¬WritesLines none [97, 98] (.upTo 1022) (fun _ _ => 1022) (beginEncode false collect []) := by
  refine ⟨by decide +kernel, fun hwrites => ?_⟩
  have hfits := textFits_of_writesLines none (.upTo 1022) (fun _ _ => 1022) rfl rfl hwrites
  exact absurd hfits.1 (by unfold Terminated; decide)

end SentryCocoa.ReportTextLines
