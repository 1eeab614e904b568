import SentryCocoa.CrashFileUtils
import SentryCocoa.Library.Delimiter
import SentryCocoa.Library.Machine

/-! A file that is read through a buffer, up to a character that a C string search looks for. -/
namespace SentryCocoa.BufferedReader
open SentryCocoa.CrashFileUtils SentryCocoa.Library.Delimiter SentryCocoa.Library.Machine

/-- `SentryCrashBufferedReader`, with the bytes of the buffer up to `dataEndPos`, behind which
there is a zero, and with what is left of the file behind the position of the descriptor. -/
structure SentryCrashBufferedReader where
  buffer : Bytes
  bufferLength : Nat
  dataStartPos : Nat
  rest : Bytes
  start_le_end : dataStartPos ≤ buffer.length

namespace SentryCrashBufferedReader

def dataEndPos (reader : SentryCrashBufferedReader) : Nat := reader.buffer.length

/-- From `dataStartPos` to `dataEndPos`. -/
def data (reader : SentryCrashBufferedReader) : Bytes := reader.buffer.drop reader.dataStartPos

/-- What was not read yet. -/
def unread (reader : SentryCrashBufferedReader) : Bytes := reader.data ++ reader.rest

def isReadBufferEmpty (reader : SentryCrashBufferedReader) : Prop :=
  reader.dataEndPos = reader.dataStartPos

instance (reader : SentryCrashBufferedReader) : Decidable reader.isReadBufferEmpty :=
  inferInstanceAs (Decidable (_ = _))

theorem length_data (reader : SentryCrashBufferedReader) :
    reader.data.length = reader.dataEndPos - reader.dataStartPos := List.length_drop

theorem isReadBufferEmpty_iff (reader : SentryCrashBufferedReader) :
    reader.isReadBufferEmpty ↔ reader.data = [] := by
  have hle := reader.start_le_end
  rw [← List.length_eq_zero_iff, length_data, isReadBufferEmpty, dataEndPos]
  omega

/-- The copied bytes, never more than there are, are behind. -/
def consume (reader : SentryCrashBufferedReader) (bytesToCopy : Nat) :
    SentryCrashBufferedReader where
  buffer := reader.buffer
  bufferLength := reader.bufferLength
  dataStartPos := reader.dataStartPos + min bytesToCopy reader.data.length
  rest := reader.rest
  start_le_end := by
    have hle := reader.start_le_end
    have hlength := reader.length_data
    rw [dataEndPos] at hlength
    omega

theorem data_consume (reader : SentryCrashBufferedReader) (bytesToCopy : Nat) :
    (reader.consume bytesToCopy).data = reader.data.drop bytesToCopy := by
  change reader.buffer.drop (reader.dataStartPos + min bytesToCopy reader.data.length) =
    (reader.buffer.drop reader.dataStartPos).drop bytesToCopy
  rw [List.drop_drop]
  by_cases hle : bytesToCopy ≤ reader.data.length
  · rw [Nat.min_eq_left hle]
  · have hlength := reader.length_data
    rw [dataEndPos] at hlength
    rw [List.drop_of_length_le (by omega), List.drop_of_length_le (by omega)]

end SentryCrashBufferedReader

/-- The bytes that `memmove` brings to the front, `dataStartPos` of them, whatever stands there. -/
def moved (reader : SentryCrashBufferedReader) : SentryCrashBufferedReader where
  buffer := (List.range (reader.dataEndPos - reader.dataStartPos)).map fun i =>
    reader.buffer.getD (if i < reader.dataStartPos then reader.dataStartPos + i else i) 0
  bufferLength := reader.bufferLength
  dataStartPos := 0
  rest := reader.rest
  start_le_end := Nat.zero_le _

def shifted (reader : SentryCrashBufferedReader) : SentryCrashBufferedReader :=
  if reader.dataStartPos > 0 then moved reader else reader

theorem SentryCrashBufferedReader.start_le_append (reader : SentryCrashBufferedReader)
    (bytesRead : Bytes) : reader.dataStartPos ≤ (reader.buffer ++ bytesRead).length := by
  have hle := reader.start_le_end
  rw [List.length_append]
  omega

def fillReadBuffer (reader : SentryCrashBufferedReader) (result : CallResult) :
    Bool × SentryCrashBufferedReader :=
  let reader := shifted reader
  let bytesToRead : Int := reader.bufferLength - reader.dataEndPos
  if bytesToRead ≤ 0 then (true, reader)
  else
    match result with
    | .error => (false, reader)
    | .upTo most =>
      let bytesRead := reader.rest.take (min (most + 1) bytesToRead.toNat)
      (true,
        { buffer := reader.buffer ++ bytesRead
          bufferLength := reader.bufferLength
          dataStartPos := reader.dataStartPos
          rest := reader.rest.drop bytesRead.length
          start_le_end := reader.start_le_append bytesRead })

/-- `sentrycrashfu_openBufferedReader`, when the file was opened. -/
def openBufferedReader (file : Bytes) (bufferLength : Nat) (result : CallResult) :
    SentryCrashBufferedReader :=
  (fillReadBuffer ⟨[], bufferLength, 0, file, Nat.le_refl 0⟩ result).2

/-- In a string that a zero follows. -/
def strchr : Bytes → UInt8 → Option Nat
  | [], ch => if ch = 0 then some 0 else none
  | byte :: s, ch =>
    if byte = ch then some 0
    else if byte = 0 then none
    else (strchr s ch).map (· + 1)

/-- One turn of `sentrycrashfu_readBufferedReaderUntilChar`: whether the character was found, and
how much is copied. -/
def turn (data : Bytes) (ch : UInt8) (bytesRemaining : Nat) : Bool × Nat :=
  let bytesToCopy := min data.length bytesRemaining
  match strchr data ch with
  | some bytesBefore => (true, min (bytesBefore + 1) bytesToCopy)
  | none => (false, bytesToCopy)

theorem turn_le (data : Bytes) (ch : UInt8) (bytesRemaining : Nat) :
    (turn data ch bytesRemaining).2 ≤ min data.length bytesRemaining := by
  unfold turn
  cases strchr data ch with
  | none => exact Nat.le_refl _
  | some bytesBefore => exact Nat.min_le_right _ _

theorem turn_not_found {data : Bytes} {ch : UInt8} {bytesRemaining : Nat}
    (h : (turn data ch bytesRemaining).1 = false) :
    (turn data ch bytesRemaining).2 = min data.length bytesRemaining := by
  unfold turn at h ⊢
  cases hfound : strchr data ch with
  | none => rfl
  | some bytesBefore =>
    rw [hfound] at h
    cases h

/-- `sentrycrashfu_readBufferedReaderUntilChar`, with what the calls of `read` do: what it
returns, what it copies, and what it leaves in the reader. -/
def readUntilChar (reader : SentryCrashBufferedReader) (ch : UInt8) (bytesRemaining : Nat)
    (results : Nat → CallResult) : Bool × Bytes × SentryCrashBufferedReader :=
  if bytesRemaining > 0 then
    let copy := turn reader.data ch bytesRemaining
    let copied := reader.data.take copy.2
    let reader' := reader.consume copy.2
    if copy.1 then (true, copied, reader')
    else if bytesRemaining - copy.2 > 0 then
      let filled := (fillReadBuffer reader' (results 0)).2
      if filled.isReadBufferEmpty then (false, copied, filled)
      else
        let later := readUntilChar filled ch (bytesRemaining - copy.2) fun i => results (i + 1)
        (later.1, copied ++ later.2.1, later.2.2)
    else (false, copied, reader')
  else (false, [], reader)
termination_by 2 * bytesRemaining + (if reader.data = [] then 1 else 0)
decreasing_by
  rename_i hfound _ hsome
  have hcopy := turn_not_found (Bool.not_eq_true _ ▸ hfound)
  rw [SentryCrashBufferedReader.isReadBufferEmpty_iff] at hsome
  rw [if_neg hsome]
  by_cases hempty : reader.data = []
  · rw [if_pos hempty]
    omega
  · have hlength := List.length_pos_iff.mpr hempty
    omega

/-! ## Blocks

What a call sees of the file are the bytes that are in the buffer, and then what each fill brings. -/

/-- What a fill brings into an empty buffer. -/
def nextBlock (bufferLength : Nat) (result : CallResult) (rest : Bytes) : Bytes :=
  match result with
  | .error => []
  | .upTo most => rest.take (min (most + 1) bufferLength)

theorem nextBlock_append_drop (bufferLength : Nat) (result : CallResult) (rest : Bytes) :
    nextBlock bufferLength result rest ++
      rest.drop (nextBlock bufferLength result rest).length = rest := by
  apply List.prefix_iff_eq_append.mp
  cases result with
  | error => exact List.nil_prefix
  | upTo most => exact List.take_prefix _ _

/-- What the fills bring one after the other, until one brings nothing. -/
def blocks (bufferLength : Nat) (results : Nat → CallResult) (rest : Bytes) : List Bytes :=
  if (nextBlock bufferLength (results 0) rest).length = 0 then []
  else nextBlock bufferLength (results 0) rest ::
    blocks bufferLength (fun i => results (i + 1))
      (rest.drop (nextBlock bufferLength (results 0) rest).length)
termination_by rest.length
decreasing_by
  rename_i hsome
  have hle : (nextBlock bufferLength (results 0) rest).length ≤ rest.length := by
    unfold nextBlock
    cases results 0 with
    | error => exact Nat.zero_le _
    | upTo most =>
      rw [List.length_take]
      omega
  rw [List.length_drop]
  omega

/-- The search in block after block. -/
def scan (ch : UInt8) : (bytesRemaining : Nat) → List Bytes → Bool × Bytes
  | _, [] => (false, [])
  | 0, _ :: _ => (false, [])
  | bytesRemaining + 1, block :: later =>
    let copy := turn block ch (bytesRemaining + 1)
    if copy.1 then (true, block.take copy.2)
    else
      let rest := scan ch (bytesRemaining + 1 - copy.2) later
      (rest.1, block.take copy.2 ++ rest.2)

variable {reader : SentryCrashBufferedReader} {results : Nat → CallResult} {ch : UInt8}
  {bytesRemaining : Nat} {block rest : Bytes} {later : List Bytes}

theorem scan_zero (ch : UInt8) (later : List Bytes) : scan ch 0 later = (false, []) := by
  cases later <;> rfl

theorem scan_found (hpos : 0 < bytesRemaining) (h : (turn block ch bytesRemaining).1 = true) :
    scan ch bytesRemaining (block :: later) =
      (true, block.take (turn block ch bytesRemaining).2) := by
  cases bytesRemaining with
  | zero => cases hpos
  | succ bytesRemaining => simp only [scan, h, if_true]

theorem scan_not_found (hpos : 0 < bytesRemaining)
    (h : (turn block ch bytesRemaining).1 = false) :
    scan ch bytesRemaining (block :: later) =
      ((scan ch (bytesRemaining - block.length) later).1,
        block.take bytesRemaining ++ (scan ch (bytesRemaining - block.length) later).2) := by
  have hcopy := turn_not_found h
  cases bytesRemaining with
  | zero => cases hpos
  | succ bytesRemaining =>
    have htake : block.take (min block.length (bytesRemaining + 1)) =
        block.take (bytesRemaining + 1) := by
      rw [List.take_eq_take_iff]
      omega
    simp only [scan, h, hcopy, htake, Bool.false_eq_true, if_false]
    rw [show bytesRemaining + 1 - min block.length (bytesRemaining + 1) =
      bytesRemaining + 1 - block.length by omega]

theorem shifted_of_empty (h : reader.data = []) :
    (shifted reader).buffer = [] ∧ (shifted reader).dataStartPos = 0 ∧
      (shifted reader).rest = reader.rest ∧
      (shifted reader).bufferLength = reader.bufferLength := by
  have hlength := reader.length_data
  rw [h, SentryCrashBufferedReader.dataEndPos, List.length_nil] at hlength
  unfold shifted
  by_cases hpos : reader.dataStartPos > 0
  · rw [if_pos hpos]
    refine ⟨?_, rfl, rfl, rfl⟩
    simp only [moved, SentryCrashBufferedReader.dataEndPos, ← hlength, List.range_zero,
      List.map_nil]
  · rw [if_neg hpos]
    exact ⟨List.length_eq_zero_iff.mp (by omega), by omega, rfl, rfl⟩

/-- A fill of a reader that has nothing in its buffer. -/
theorem fillReadBuffer_of_empty (h : reader.data = []) (result : CallResult) :
    (fillReadBuffer reader result).2.data = nextBlock reader.bufferLength result reader.rest ∧
      (fillReadBuffer reader result).2.rest =
        reader.rest.drop (nextBlock reader.bufferLength result reader.rest).length ∧
      (fillReadBuffer reader result).2.bufferLength = reader.bufferLength := by
  obtain ⟨hbuffer, hstart, hrest, hlength⟩ := shifted_of_empty h
  have hdata : (shifted reader).data = [] := by
    rw [SentryCrashBufferedReader.data, hbuffer, List.drop_nil]
  have hend : (shifted reader).dataEndPos = 0 := by
    rw [SentryCrashBufferedReader.dataEndPos, hbuffer, List.length_nil]
  cases result with
  | error =>
    have hsame : (fillReadBuffer reader .error).2 = shifted reader := by
      simp only [fillReadBuffer]
      split <;> rfl
    rw [hsame]
    exact ⟨hdata, hrest, hlength⟩
  | upTo most =>
    simp only [fillReadBuffer, hend, hlength, nextBlock]
    by_cases hroom : (reader.bufferLength : Int) - (0 : Nat) ≤ 0
    · rw [if_pos hroom]
      have hzero : reader.bufferLength = 0 := by omega
      rw [hzero, Nat.min_zero, List.take_zero]
      exact ⟨hdata, hrest, hlength.trans hzero⟩
    · rw [if_neg hroom]
      have hcount : ((reader.bufferLength : Int) - (0 : Nat)).toNat = reader.bufferLength := by
        omega
      simp only [SentryCrashBufferedReader.data, hbuffer, hstart, hrest, hcount, List.nil_append,
        List.drop_zero, and_self]

theorem blocks_of_nil (h : nextBlock reader.bufferLength (results 0) rest = []) :
    blocks reader.bufferLength results rest = [] := by
  rw [blocks, h, if_pos List.length_nil]

theorem blocks_of_ne_nil (h : nextBlock reader.bufferLength (results 0) rest ≠ []) :
    blocks reader.bufferLength results rest =
      nextBlock reader.bufferLength (results 0) rest ::
        blocks reader.bufferLength (fun i => results (i + 1))
          (rest.drop (nextBlock reader.bufferLength (results 0) rest).length) := by
  rw [blocks, if_neg (List.length_eq_zero_iff.not.mpr h)]

/-- What a call returns and copies is what the search in the blocks does, and everything that it
does not copy is still unread. -/
def Scans (reader : SentryCrashBufferedReader) (ch : UInt8) (bytesRemaining : Nat)
    (results : Nat → CallResult) (call : Bool × Bytes × SentryCrashBufferedReader) : Prop :=
  (call.1, call.2.1) =
      scan ch bytesRemaining (reader.data :: blocks reader.bufferLength results reader.rest) ∧
    call.2.1 ++ call.2.2.unread = reader.unread ∧
    call.2.2.bufferLength = reader.bufferLength

/-- The call copies all that is in the buffer and wants more. -/
theorem fill_after_turn (hfound : ¬(turn reader.data ch bytesRemaining).1 = true)
    (hmore : bytesRemaining - (turn reader.data ch bytesRemaining).2 > 0) (result : CallResult) :
    let filled := (fillReadBuffer
      (reader.consume (turn reader.data ch bytesRemaining).2) result).2
    reader.data.take (turn reader.data ch bytesRemaining).2 = reader.data ∧
      (turn reader.data ch bytesRemaining).2 = reader.data.length ∧
      filled.data = nextBlock reader.bufferLength result reader.rest ∧
      filled.rest = reader.rest.drop (nextBlock reader.bufferLength result reader.rest).length ∧
      filled.bufferLength = reader.bufferLength := by
  have hcopy := turn_not_found (Bool.not_eq_true _ ▸ hfound)
  have hall : (turn reader.data ch bytesRemaining).2 = reader.data.length := by omega
  have hempty : (reader.consume (turn reader.data ch bytesRemaining).2).data = [] := by
    rw [reader.data_consume, hall, List.drop_length]
  rw [hall] at hempty ⊢
  exact ⟨List.take_length, rfl, fillReadBuffer_of_empty hempty result⟩

theorem scans_readUntilChar (reader : SentryCrashBufferedReader) (ch : UInt8)
    (bytesRemaining : Nat) (results : Nat → CallResult) :
    Scans reader ch bytesRemaining results (readUntilChar reader ch bytesRemaining results) := by
  have consumed : ∀ (reader : SentryCrashBufferedReader) (count : Nat),
      reader.data.take count ++ (reader.consume count).unread = reader.unread := by
    intro reader count
    rw [SentryCrashBufferedReader.unread, reader.data_consume, ← List.append_assoc,
      List.take_append_drop]
    rfl
  induction reader, bytesRemaining, results using readUntilChar.induct ch with
  | case1 reader bytesRemaining results hpos copy hfound =>
    rw [readUntilChar, if_pos hpos]
    dsimp only
    rw [if_pos hfound]
    exact ⟨(scan_found hpos hfound).symm, consumed reader _, rfl⟩
  | case2 reader bytesRemaining results hpos copy reader' hfound hmore filled hempty =>
    rw [readUntilChar, if_pos hpos]
    dsimp only
    rw [if_neg hfound, if_pos hmore, if_pos hempty]
    dsimp only [copy, reader', filled] at hfound hmore hempty
    obtain ⟨htake, hall, hdata, hrest, hlength⟩ := fill_after_turn hfound hmore (results 0)
    have hnil := (SentryCrashBufferedReader.isReadBufferEmpty_iff _).mp hempty
    have hblock := hdata.symm.trans hnil
    rw [hblock, List.length_nil, List.drop_zero] at hrest
    refine ⟨?_, ?_, hlength⟩
    · rw [scan_not_found hpos (Bool.not_eq_true _ ▸ hfound), blocks_of_nil hblock]
      change (false, _) = (false, _ ++ [])
      rw [htake, List.append_nil, List.take_of_length_le (by omega)]
    · change _ ++ (_ ++ _) = reader.data ++ reader.rest
      rw [htake, hnil, List.nil_append, hrest]
  | case3 reader bytesRemaining results hpos copy reader' hfound hmore filled hsome ih =>
    rw [readUntilChar, if_pos hpos]
    dsimp only
    rw [if_neg hfound, if_pos hmore, if_neg hsome]
    dsimp only [copy, reader', filled] at hfound hmore hsome ih
    obtain ⟨htake, hall, hdata, hrest, hlength⟩ := fill_after_turn hfound hmore (results 0)
    have hblock : nextBlock reader.bufferLength (results 0) reader.rest ≠ [] := by
      rw [← hdata]
      exact (SentryCrashBufferedReader.isReadBufferEmpty_iff _).not.mp hsome
    obtain ⟨hscan, hunread, hsame⟩ := ih
    rw [hdata, hlength, hrest, hall] at hscan
    refine ⟨?_, ?_, hsame.trans hlength⟩
    · rw [scan_not_found hpos (Bool.not_eq_true _ ▸ hfound), blocks_of_ne_nil hblock, ← hscan,
        hall, List.take_length, List.take_of_length_le (by omega)]
    · rw [List.append_assoc, hunread, htake, SentryCrashBufferedReader.unread, hdata, hrest,
        nextBlock_append_drop]
      rfl
  | case4 reader bytesRemaining results hpos copy hfound hmore =>
    rw [readUntilChar, if_pos hpos]
    dsimp only
    rw [if_neg hfound, if_neg hmore]
    refine ⟨?_, consumed reader _, rfl⟩
    dsimp only [copy] at hfound hmore
    have hcopy := turn_not_found (Bool.not_eq_true _ ▸ hfound)
    have htake : reader.data.take (turn reader.data ch bytesRemaining).2 =
        reader.data.take bytesRemaining := by
      rw [List.take_eq_take_iff]
      omega
    rw [scan_not_found hpos (Bool.not_eq_true _ ▸ hfound),
      show bytesRemaining - reader.data.length = 0 by omega, scan_zero, List.append_nil, ← htake]
  | case5 reader bytesRemaining results hzero =>
    rw [readUntilChar, if_neg hzero, show bytesRemaining = 0 by omega]
    exact ⟨(scan_zero ch _).symm, rfl, rfl⟩

/-! ## What is searched -/

theorem strchr_eq_some {data : Bytes} {bytesBefore : Nat}
    (h : strchr data ch = some bytesBefore) :
    ch ∉ data.take bytesBefore ∧ (data ++ [0])[bytesBefore]? = some ch := by
  induction data generalizing bytesBefore with
  | nil =>
    unfold strchr at h
    split at h
    · next hzero =>
      cases h
      subst hzero
      exact ⟨List.not_mem_nil, rfl⟩
    · cases h
  | cons byte data ih =>
    unfold strchr at h
    split at h
    · next hbyte =>
      cases h
      subst hbyte
      exact ⟨List.not_mem_nil, rfl⟩
    · next hbyte =>
      split at h
      · cases h
      · obtain ⟨before, hbefore, rfl⟩ := Option.map_eq_some_iff.mp h
        obtain ⟨hnone, hat⟩ := ih hbefore
        refine ⟨?_, hat⟩
        rw [List.take_succ_cons, List.mem_cons, not_or]
        exact ⟨Ne.symm hbyte, hnone⟩

/-- What the claim of the function says about a call. -/
def Right (ch : UInt8) (length : Nat) (file : Bytes) (returned : Bool) (copied : Bytes) : Prop :=
  copied = upTo ch (file.take length) ∧ (returned = true ↔ copied.getLast? = some ch)

/-- In every block that the call gets to, the search for a C string finds the character exactly
when it is among the bytes of the block that are wanted. -/
def SearchesRight (ch : UInt8) : (length : Nat) → List Bytes → Prop
  | _, [] => True
  | length, block :: later =>
    0 < length → ((strchr block ch).isSome ↔ ch ∈ block.take length) ∧
      (ch ∉ block.take length → SearchesRight ch (length - block.length) later)

theorem turn_found_iff {data : Bytes} :
    (turn data ch bytesRemaining).1 = true ↔ (strchr data ch).isSome = true := by
  unfold turn
  cases strchr data ch <;> rfl

/-- A character that is found among the wanted bytes ends the copy. -/
theorem take_turn_of_mem (hfound : (strchr block ch).isSome = true)
    (hmem : ch ∈ block.take bytesRemaining) :
    block.take (turn block ch bytesRemaining).2 = upTo ch (block.take bytesRemaining) := by
  obtain ⟨before, hbefore⟩ := Option.isSome_iff_exists.mp hfound
  obtain ⟨hnone, hat⟩ := strchr_eq_some hbefore
  obtain ⟨i, hi, hbyte⟩ := List.mem_take_iff_getElem.mp hmem
  have hle : before ≤ i := by
    by_contra hlt
    exact hnone (List.mem_take_iff_getElem.mpr ⟨i, by omega, hbyte⟩)
  rw [List.getElem?_append_left (by omega), List.getElem?_eq_some_iff] at hat
  obtain ⟨hlt, hch⟩ := hat
  have hcopy : (turn block ch bytesRemaining).2 = before + 1 := by
    simp only [turn, hbefore]
    omega
  have hsplit : block.take bytesRemaining =
      block.take before ++ ch :: (block.drop (before + 1)).take (bytesRemaining - (before + 1)) := by
    rw [show bytesRemaining = before + (1 + (bytesRemaining - (before + 1))) by omega,
      List.take_add, List.drop_eq_getElem_cons hlt, hch, Nat.add_comm 1, List.take_succ_cons]
    congr 4
    omega
  rw [hcopy, hsplit, upTo_append_of_not_mem hnone, upTo_cons_self, List.take_succ_eq_append_getElem hlt,
    hch]

/-- A character that is found elsewhere does not stop the copy before the wanted bytes end. -/
theorem take_turn_of_not_mem (hmem : ch ∉ block.take bytesRemaining) :
    block.take (turn block ch bytesRemaining).2 = block.take bytesRemaining := by
  have hcopy : (turn block ch bytesRemaining).2 = min block.length bytesRemaining := by
    unfold turn
    cases hfound : strchr block ch with
    | none => rfl
    | some before =>
      have hat := (strchr_eq_some hfound).2
      have hle : min block.length bytesRemaining ≤ before := by
        by_contra hlt
        rw [List.getElem?_append_left (by omega), List.getElem?_eq_some_iff] at hat
        obtain ⟨hi, hbyte⟩ := hat
        exact hmem (List.mem_take_iff_getElem.mpr ⟨before, by omega, hbyte⟩)
      dsimp only
      omega
  rw [hcopy, List.take_eq_take_iff]
  omega

theorem scan_of_isSome (hpos : 0 < bytesRemaining) (h : (strchr block ch).isSome = true) :
    scan ch bytesRemaining (block :: later) =
      (true, block.take (turn block ch bytesRemaining).2) :=
  scan_found hpos (turn_found_iff.mpr h)

theorem scan_of_isNone (hpos : 0 < bytesRemaining) (h : ¬(strchr block ch).isSome = true) :
    scan ch bytesRemaining (block :: later) =
      ((scan ch (bytesRemaining - block.length) later).1,
        block.take bytesRemaining ++ (scan ch (bytesRemaining - block.length) later).2) :=
  scan_not_found hpos (Bool.not_eq_true _ ▸ turn_found_iff.not.mpr h)

/-- A search that ends with success has copied something. -/
theorem scan_ne_nil (hblocks : ∀ block ∈ later, block ≠ [])
    (h : (scan ch bytesRemaining later).1 = true) : (scan ch bytesRemaining later).2 ≠ [] := by
  cases later with
  | nil => cases h
  | cons block later =>
    have hblock := List.length_pos_iff.mpr (hblocks block List.mem_cons_self)
    rcases Nat.eq_zero_or_pos bytesRemaining with rfl | hpos
    · rw [scan_zero] at h
      cases h
    · intro hnil
      have hlength := congrArg List.length hnil
      by_cases hfound : (strchr block ch).isSome = true
      · obtain ⟨before, hbefore⟩ := Option.isSome_iff_exists.mp hfound
        rw [scan_of_isSome hpos hfound, List.length_take, List.length_nil] at hlength
        simp only [turn, hbefore] at hlength
        omega
      · rw [scan_of_isNone hpos hfound, List.length_append, List.length_take,
          List.length_nil] at hlength
        omega

theorem searchesRight_cons (hpos : 0 < bytesRemaining) :
    SearchesRight ch bytesRemaining (block :: later) ↔
      ((strchr block ch).isSome = true ↔ ch ∈ block.take bytesRemaining) ∧
        (ch ∉ block.take bytesRemaining →
          SearchesRight ch (bytesRemaining - block.length) later) :=
  ⟨fun h => h hpos, fun h _ => h⟩

/-- A block that the character is not in is copied as it is, and the search goes on. -/
theorem right_append_iff {wanted file copied : Bytes} {length : Nat} {returned : Bool}
    (hmem : ch ∉ wanted) : (wanted ++ copied = upTo ch (wanted ++ file.take length) ∧
      (returned = true ↔ (wanted ++ copied).getLast? = some ch)) ↔
        Right ch length file returned copied := by
  rw [upTo_append_of_not_mem hmem, List.append_cancel_left_eq]
  apply and_congr_right
  intro _
  have hlast : (wanted ++ copied).getLast? = some ch ↔ copied.getLast? = some ch := by
    rw [List.getLast?_append]
    cases hcopied : copied.getLast? with
    | none =>
      refine iff_of_false (fun hwanted => hmem ?_) nofun
      exact List.mem_of_getLast? hwanted
    | some byte => rfl
  rw [hlast]

/-- The search copies what is wanted exactly when it searches right in each block, and the blocks
have all that is wanted. -/
theorem right_scan_iff {rest : Bytes} {bs : List Bytes} (hblocks : ∀ block ∈ bs.tail, block ≠ []) :
    Right ch bytesRemaining (bs.flatten ++ rest) (scan ch bytesRemaining bs).1
        (scan ch bytesRemaining bs).2 ↔
      SearchesRight ch bytesRemaining bs ∧
        (upTo ch ((bs.flatten ++ rest).take bytesRemaining)).length ≤ bs.flatten.length := by
  induction bs generalizing bytesRemaining with
  | nil =>
    have hnil : Right ch bytesRemaining rest false [] ↔ upTo ch (rest.take bytesRemaining) = [] :=
      ⟨fun h => h.1.symm, fun h => ⟨h.symm, iff_of_false nofun nofun⟩⟩
    have hscan : scan ch bytesRemaining [] = (false, []) := by cases bytesRemaining <;> rfl
    rw [List.flatten_nil, List.nil_append, hscan, hnil, List.length_nil, Nat.le_zero,
      List.length_eq_zero_iff]
    exact (and_iff_right trivial).symm
  | cons block later ih =>
    rcases Nat.eq_zero_or_pos bytesRemaining with rfl | hpos
    · rw [scan_zero, List.take_zero]
      exact iff_of_true ⟨rfl, iff_of_false nofun nofun⟩ ⟨fun h => absurd h (Nat.lt_irrefl 0),
        Nat.zero_le _⟩
    · have htake : ((block :: later).flatten ++ rest).take bytesRemaining =
          block.take bytesRemaining ++
            (later.flatten ++ rest).take (bytesRemaining - block.length) := by
        rw [List.flatten_cons, List.append_assoc, List.take_append]
      have hlength : (block :: later).flatten.length = block.length + later.flatten.length := by
        rw [List.flatten_cons, List.length_append]
      have hwanted := List.length_take (i := bytesRemaining) (l := block)
      rw [Right, htake, hlength, searchesRight_cons hpos]
      by_cases hmem : ch ∈ block.take bytesRemaining
      · have hupTo := @length_upTo_le _ _ ch (block.take bytesRemaining)
        rw [upTo_append_of_mem hmem]
        by_cases hfound : (strchr block ch).isSome = true
        · rw [scan_of_isSome hpos hfound, take_turn_of_mem hfound hmem]
          exact iff_of_true ⟨rfl, iff_of_true rfl (getLast?_upTo.mpr hmem)⟩
            ⟨⟨iff_of_true hfound hmem, fun hno => absurd hmem hno⟩, by omega⟩
        · rw [scan_of_isNone hpos hfound]
          refine iff_of_false ?_ fun h => hfound (h.1.1.mpr hmem)
          rintro ⟨hcopied, hreturned⟩
          have hnil : (scan ch (bytesRemaining - block.length) later).2 = [] := by
            have hlengths := congrArg List.length hcopied
            rw [List.length_append] at hlengths
            exact List.length_eq_zero_iff.mp (by omega)
          have hlast := hcopied ▸ getLast?_upTo.mpr hmem
          exact scan_ne_nil hblocks (hreturned.mpr hlast) hnil
      · by_cases hfound : (strchr block ch).isSome = true
        · rw [scan_of_isSome hpos hfound, take_turn_of_not_mem hmem]
          refine iff_of_false ?_ fun h => hmem (h.1.1.mp hfound)
          rintro ⟨_, hreturned⟩
          exact hmem (List.mem_of_getLast? (hreturned.mp rfl))
        · have hrest := @length_upTo_le _ _ ch
            ((later.flatten ++ rest).take (bytesRemaining - block.length))
          rw [List.length_take] at hrest
          have hih := @ih (bytesRemaining - block.length) fun block hblock =>
            hblocks block (List.mem_of_mem_tail hblock)
          rw [scan_of_isNone hpos hfound, right_append_iff hmem, hih,
            upTo_append_of_not_mem hmem, List.length_append]
          have hsame : ((strchr block ch).isSome = true ↔ ch ∈ block.take bytesRemaining) :=
            iff_of_false hfound hmem
          constructor
          · rintro ⟨hsearches, hle⟩
            exact ⟨⟨hsame, fun _ => hsearches⟩, by omega⟩
          · rintro ⟨⟨_, hsearches⟩, hle⟩
            exact ⟨hsearches hmem, by omega⟩

theorem blocks_ne_nil (bufferLength : Nat) (results : Nat → CallResult) (rest : Bytes) :
    ∀ block ∈ blocks bufferLength results rest, block ≠ [] := by
  induction results, rest using blocks.induct bufferLength with
  | case1 results rest hnil =>
    rw [blocks, if_pos hnil]
    exact nofun
  | case2 results rest hsome ih =>
    rw [blocks, if_neg hsome]
    intro block hblock
    rcases List.mem_cons.mp hblock with rfl | hmem
    · exact List.length_eq_zero_iff.not.mp hsome
    · exact ih block hmem

/-- The fills bring the bytes of the file one after the other. -/
theorem exists_flatten_blocks_append (bufferLength : Nat) (results : Nat → CallResult)
    (rest : Bytes) : ∃ behind, (blocks bufferLength results rest).flatten ++ behind = rest := by
  induction results, rest using blocks.induct bufferLength with
  | case1 results rest hnil =>
    rw [blocks, if_pos hnil]
    exact ⟨rest, rfl⟩
  | case2 results rest hsome ih =>
    obtain ⟨behind, hbehind⟩ := ih
    refine ⟨behind, ?_⟩
    rw [blocks, if_neg hsome, List.flatten_cons, List.append_assoc, hbehind,
      nextBlock_append_drop]

/-- Without a failure they bring all of it. -/
theorem flatten_blocks {bufferLength : Nat} (hbuffer : 0 < bufferLength)
    (results : Nat → CallResult) (rest : Bytes) (hresults : ∀ i, results i ≠ .error) :
    (blocks bufferLength results rest).flatten = rest := by
  induction results, rest using blocks.induct bufferLength with
  | case1 results rest hnil =>
    rw [blocks, if_pos hnil]
    cases hresult : results 0 with
    | error => exact absurd hresult (hresults 0)
    | upTo most =>
      rw [hresult, nextBlock, List.length_take] at hnil
      exact (List.length_eq_zero_iff.mp (by omega)).symm
  | case2 results rest hsome ih =>
    rw [blocks, if_neg hsome, List.flatten_cons, ih fun i => hresults (i + 1),
      nextBlock_append_drop]

/-! ## What a call copies -/

theorem length_scan_le (ch : UInt8) (bytesRemaining : Nat) (bs : List Bytes) :
    (scan ch bytesRemaining bs).2.length ≤ bytesRemaining := by
  induction bs generalizing bytesRemaining with
  | nil => cases bytesRemaining <;> exact Nat.zero_le _
  | cons block later ih =>
    rcases Nat.eq_zero_or_pos bytesRemaining with rfl | hpos
    · rw [scan_zero]
      exact Nat.le_refl 0
    · by_cases hfound : (strchr block ch).isSome = true
      · have hcopy := turn_le block ch bytesRemaining
        rw [scan_of_isSome hpos hfound, List.length_take]
        omega
      · have hrest := ih (bytesRemaining - block.length)
        rw [scan_of_isNone hpos hfound, List.length_append, List.length_take]
        omega

/-- A call for a character that is not zero copies something if there is anything. -/
theorem scan_ne_nil_of_flatten {bs : List Bytes} (hch : ch ≠ 0) (hpos : 0 < bytesRemaining)
    (h : bs.flatten ≠ []) : (scan ch bytesRemaining bs).2 ≠ [] := by
  induction bs with
  | nil => exact absurd rfl h
  | cons block later ih =>
    cases block with
    | nil =>
      have hnone : ¬(strchr [] ch).isSome = true := by simp [strchr, hch]
      rw [scan_of_isNone hpos hnone, List.take_nil, List.nil_append]
      exact ih h
    | cons byte block =>
      intro hnil
      have hlength := congrArg List.length hnil
      by_cases hfound : (strchr (byte :: block) ch).isSome = true
      · obtain ⟨before, hbefore⟩ := Option.isSome_iff_exists.mp hfound
        rw [scan_of_isSome hpos hfound, List.length_take, List.length_nil] at hlength
        simp only [turn, hbefore, List.length_cons] at hlength
        omega
      · rw [scan_of_isNone hpos hfound, List.length_append, List.length_take, List.length_cons,
          List.length_nil] at hlength
        omega

theorem strchr_of_not_mem {data : Bytes} (hch : ch ≠ 0) (h : ch ∉ data) :
    (strchr data ch).isSome = false := by
  induction data with
  | nil => simp [strchr, hch]
  | cons byte data ih =>
    rw [List.mem_cons, not_or] at h
    unfold strchr
    rw [if_neg (Ne.symm h.1)]
    split
    · rfl
    · rw [Option.isSome_map, ih h.2]

theorem strchr_append_cons {data : Bytes} (h : 0 ∉ data) (behind : Bytes) :
    (strchr (data ++ ch :: behind) ch).isSome = true := by
  induction data with
  | nil => simp [strchr]
  | cons byte data ih =>
    rw [List.mem_cons, not_or] at h
    rw [List.cons_append]
    unfold strchr
    split
    · rfl
    · rw [if_neg (Ne.symm h.1), Option.isSome_map, ih h.2]

/-- A line without zeros that fits is searched right, wherever the blocks end. -/
theorem searchesRight_line {bs : List Bytes} {line behind : Bytes} (hch : ch ≠ 0)
    (hzero : 0 ∉ line) (hline : ch ∉ line) (hfits : line.length < bytesRemaining)
    (h : bs.flatten = line ++ ch :: behind) : SearchesRight ch bytesRemaining bs := by
  induction bs generalizing bytesRemaining line with
  | nil => trivial
  | cons block later ih =>
    rw [searchesRight_cons (Nat.zero_lt_of_lt hfits)]
    rw [List.flatten_cons] at h
    rcases List.append_eq_append_iff.mp h with ⟨rest, rfl, hrest⟩ | ⟨rest, rfl, hrest⟩
    · have hblock : ch ∉ block := fun hmem => hline (List.mem_append_left rest hmem)
      have htake : ch ∉ block.take bytesRemaining := fun hmem => hblock (List.mem_of_mem_take hmem)
      rw [List.length_append] at hfits
      refine ⟨iff_of_false ?_ htake, fun _ => ih ?_ ?_ ?_ hrest⟩
      · rw [strchr_of_not_mem hch hblock]
        exact Bool.false_ne_true
      · exact fun hmem => hzero (List.mem_append_right block hmem)
      · exact fun hmem => hline (List.mem_append_right block hmem)
      · omega
    · cases rest with
      | nil =>
        rw [List.append_nil, List.nil_append] at *
        have htake : ch ∉ line.take bytesRemaining := fun hmem => hline (List.mem_of_mem_take hmem)
        refine ⟨iff_of_false ?_ htake, fun _ => @ih _ [] ?_ ?_ ?_ hrest.symm⟩
        · rw [strchr_of_not_mem hch hline]
          exact Bool.false_ne_true
        · exact List.not_mem_nil
        · exact List.not_mem_nil
        · rw [List.length_nil]
          omega
      | cons byte rest =>
        rw [List.cons_append] at hrest
        cases hrest
        have htake : ch ∈ (line ++ ch :: rest).take bytesRemaining := by
          rw [List.take_append]
          apply List.mem_append_right
          rw [List.take_cons (by omega)]
          exact List.mem_cons_self
        exact ⟨iff_of_true (strchr_append_cons hzero rest) htake, fun hno => absurd htake hno⟩

/-! ## Runs -/

structure Event where
  ch : UInt8
  length : Nat
  results : Nat → CallResult

/-- A call that was made, and what was unread before it. -/
structure Call where
  event : Event
  file : Bytes
  returned : Bool
  copied : Bytes

/-- A reader, and what its calls have copied, which is not in the source. -/
structure Reading where
  reader : SentryCrashBufferedReader
  copied : Bytes
  last : Option Call

def Reading.opened (file : Bytes) (bufferLength : Nat) (result : CallResult) : Reading :=
  ⟨openBufferedReader file bufferLength result, [], none⟩

def step (reading : Reading) (event : Event) : Option Reading :=
  let call := readUntilChar reading.reader event.ch event.length event.results
  some
    { reader := call.2.2
      copied := reading.copied ++ call.2.1
      last := some ⟨event, reading.reader.unread, call.1, call.2.1⟩ }

/-- The calls divide the file, and the last one has copied what is wanted. -/
structure Correct (file : Bytes) (reading : Reading) : Prop where
  divided : reading.copied ++ reading.reader.unread = file
  last : ∀ call ∈ reading.last,
    Right call.event.ch call.event.length call.file call.returned call.copied

/-- What is in the buffer and what the fills bring. -/
def Reading.blocks (reading : Reading) (event : Event) : List Bytes :=
  reading.reader.data ::
    BufferedReader.blocks reading.reader.bufferLength event.results reading.reader.rest

/-- The search is right in every block, and the fills bring what is wanted. -/
def Searchable (reading : Reading) (event : Event) : Prop :=
  SearchesRight event.ch event.length (reading.blocks event) ∧
    (upTo event.ch (reading.reader.unread.take event.length)).length ≤
      (reading.blocks event).flatten.length

theorem right_readUntilChar_iff (reading : Reading) (event : Event) :
    Right event.ch event.length reading.reader.unread
        (readUntilChar reading.reader event.ch event.length event.results).1
        (readUntilChar reading.reader event.ch event.length event.results).2.1 ↔
      Searchable reading event := by
  obtain ⟨behind, hbehind⟩ := exists_flatten_blocks_append reading.reader.bufferLength
    event.results reading.reader.rest
  have hunread : (reading.blocks event).flatten ++ behind = reading.reader.unread := by
    rw [Reading.blocks, List.flatten_cons, List.append_assoc, hbehind,
      SentryCrashBufferedReader.unread]
  have hscan := (scans_readUntilChar reading.reader event.ch event.length event.results).1
  rw [(Prod.mk.inj hscan).1, (Prod.mk.inj hscan).2, Searchable, ← hunread]
  exact right_scan_iff (blocks_ne_nil _ _ _)

theorem correct_step_iff {file : Bytes} {reading reading' : Reading} {event : Event}
    (h : Correct file reading) (hstep : step reading event = some reading') :
    Correct file reading' ↔ Searchable reading event := by
  cases hstep
  rw [← right_readUntilChar_iff]
  constructor
  · exact fun hcorrect => hcorrect.last _ rfl
  · intro hright
    refine ⟨?_, fun call hcall => ?_⟩
    · rw [List.append_assoc,
        (scans_readUntilChar reading.reader event.ch event.length event.results).2.1, h.divided]
    · cases hcall
      exact hright

theorem unread_openBufferedReader (file : Bytes) (bufferLength : Nat) (result : CallResult) :
    (openBufferedReader file bufferLength result).unread = file ∧
      (openBufferedReader file bufferLength result).bufferLength = bufferLength := by
  obtain ⟨hdata, hrest, hlength⟩ :=
    @fillReadBuffer_of_empty ⟨[], bufferLength, 0, file, Nat.le_refl 0⟩ rfl result
  refine ⟨?_, hlength⟩
  change (fillReadBuffer _ result).2.data ++ (fillReadBuffer _ result).2.rest = file
  rw [hdata, hrest, nextBlock_append_drop]

theorem correct_opened (file : Bytes) (bufferLength : Nat) (result : CallResult) :
    Correct file (Reading.opened file bufferLength result) := by
  refine ⟨?_, nofun⟩
  change [] ++ (openBufferedReader file bufferLength result).unread = file
  rw [(unread_openBufferedReader file bufferLength result).1, List.nil_append]

/-- Every call copies up to the character exactly in the runs in which every call searches right
in what is in the buffer. -/
theorem always_correct_iff_searchable (file : Bytes) (bufferLength : Nat) (result : CallResult)
    (events : List Event) :
    Always step (Correct file) (Reading.opened file bufferLength result) events ↔
      Allowed step Searchable (Reading.opened file bufferLength result) events :=
  always_iff_allowed (fun _ h => h)
    (fun _ _ _ h hok hstep => (correct_step_iff h hstep).mpr hok)
    (fun _ _ _ h hok hstep hcorrect => hok ((correct_step_iff h hstep).mp hcorrect))
    (correct_opened file bufferLength result) events

def exampleCall (length : Nat) : Event where
  ch := 10
  length := length
  results := fun _ => .upTo 1022

/-- A line with a zero in it, and a line that is longer than the destination. -/
theorem exampleCall_not_right :
    (readUntilChar (openBufferedReader [97, 0, 98, 10, 99] 1023 (.upTo 1022)) 10 5
      fun _ => .upTo 1022).2.1 = [97, 0, 98, 10, 99] ∧
    (readUntilChar (openBufferedReader [97, 98, 10] 1023 (.upTo 1022)) 10 2
      fun _ => .upTo 1022).1 = true ∧
    ¬Always step (Correct [97, 0, 98, 10, 99])
      (Reading.opened [97, 0, 98, 10, 99] 1023 (.upTo 1022)) [exampleCall 5] ∧
    ¬Always step (Correct [97, 98, 10])
      (Reading.opened [97, 98, 10] 1023 (.upTo 1022)) [exampleCall 2] := by
  refine ⟨by decide +kernel, by decide +kernel, ?_, ?_⟩
  · intro hright
    have hcall := ((hright.2 _ rfl).head.last _ rfl).1
    exact absurd hcall (by decide +kernel)
  · intro hright
    have hcall := ((hright.2 _ rfl).head.last _ rfl).2.mp (by decide +kernel)
    exact absurd hcall (by decide +kernel)

end SentryCocoa.BufferedReader
