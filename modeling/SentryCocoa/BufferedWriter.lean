import SentryCocoa.CrashFileUtils
import SentryCocoa.Library.Machine

/-! The buffer between the encoder of a crash report and its file. -/
namespace SentryCocoa.BufferedWriter
open SentryCocoa.CrashFileUtils SentryCocoa.Library.Machine

/-- `SentryCrashBufferedWriter`, with the bytes of the buffer up to `position`. Those that a copy
writes behind the buffer belong to it as well. -/
structure SentryCrashBufferedWriter where
  buffer : Bytes
  bufferLength : Nat
  fd : Nat

def SentryCrashBufferedWriter.position (writer : SentryCrashBufferedWriter) : Nat :=
  writer.buffer.length

/-- A call: what it returns, what it leaves in the writer, what it has brought to the file, whether
all that it wrote there was written, and where in the buffer its copy has ended. -/
structure Call where
  returned : Bool
  writer : SentryCrashBufferedWriter
  reached : Bytes
  written : Bool
  copyEnd : Nat

/-- `sentrycrashfu_openBufferedWriter`, when the file was opened. -/
def openBufferedWriter (fd writeBufferLength : Nat) : SentryCrashBufferedWriter where
  buffer := []
  bufferLength := writeBufferLength
  fd := fd

def flushBufferedWriter (writer : SentryCrashBufferedWriter) (results : List CallResult) : Call :=
  if writer.fd > 0 ∧ writer.position > 0 then
    let write := writeBytesToFD results writer.buffer
    if write.1 then ⟨true, { writer with buffer := [] }, write.2, true, 0⟩
    else ⟨false, writer, write.2, false, 0⟩
  else ⟨true, writer, [], true, 0⟩

/-- `sentrycrashfu_writeBufferedWriter`, with what the calls of `write` do when the buffer is
flushed and when the data does not go through it. -/
def writeBufferedWriter (writer : SentryCrashBufferedWriter) (data : Bytes)
    (flushResults results : List CallResult) : Call :=
  let flush :=
    if (data.length : Int) > writer.bufferLength - writer.position then
      flushBufferedWriter writer flushResults
    else ⟨true, writer, [], true, 0⟩
  if data.length > flush.writer.bufferLength then
    let write := writeBytesToFD results data
    ⟨write.1, flush.writer, flush.reached ++ write.2, flush.written && write.1, 0⟩
  else
    let buffer := flush.writer.buffer ++ data
    ⟨true, { flush.writer with buffer := buffer }, flush.reached, flush.written, buffer.length⟩

/-! Runs. -/

inductive Event where
  | write (data : Bytes) (flushResults results : List CallResult)
  | flush (results : List CallResult)

/-- The writer and its file. What was to be written, whether it all was, and where the copies have
ended are not in the source. -/
structure Report where
  writer : SentryCrashBufferedWriter
  file : Bytes
  inputs : Bytes
  allWritten : Bool
  copyEnd : Nat

def Report.opened (fd writeBufferLength : Nat) : Report :=
  ⟨openBufferedWriter fd writeBufferLength, [], [], true, 0⟩

def Report.after (report : Report) (call : Call) (input : Bytes) : Report where
  writer := call.writer
  file := report.file ++ call.reached
  inputs := report.inputs ++ input
  allWritten := report.allWritten && call.written
  copyEnd := max report.copyEnd call.copyEnd

def step (report : Report) : Event → Option Report
  | .write data flushResults results =>
    some (report.after (writeBufferedWriter report.writer data flushResults results) data)
  | .flush results => some (report.after (flushBufferedWriter report.writer results) [])

/-- Nothing is written outside of the buffer, and nothing is lost, repeated or out of order when
all writes succeed. -/
structure Correct (report : Report) : Prop where
  position : report.writer.position ≤ report.writer.bufferLength
  copies : report.copyEnd ≤ report.writer.bufferLength
  complete : report.allWritten = true → report.file ++ report.writer.buffer = report.inputs

/-- The buffer has room for the data, or the data does not go through it, or the flush that makes
room succeeds. A descriptor that is zero is never flushed: what goes by the buffer overtakes what
is in it. -/
def MakesRoom (report : Report) : Event → Prop
  | .write data flushResults results =>
    report.writer.position + data.length ≤ report.writer.bufferLength ∨
      if report.writer.fd > 0 then
        data.length ≤ report.writer.bufferLength → ¬WriteFails flushResults report.writer.buffer
      else report.writer.bufferLength < data.length ∧
        (report.allWritten = true → ¬WriteFails results data →
          data ++ report.writer.buffer = report.writer.buffer ++ data)
  | .flush _ => True

variable {writer : SentryCrashBufferedWriter} {report : Report} {data : Bytes}
  {flushResults results : List CallResult}

theorem flush_of_not_fails (hfd : writer.fd > 0) (h : ¬WriteFails results writer.buffer) :
    flushBufferedWriter writer results =
      ⟨true, { writer with buffer := [] }, writer.buffer, true, 0⟩ := by
  obtain ⟨buffer, bufferLength, fd⟩ := writer
  cases buffer with
  | nil => simp [flushBufferedWriter, SentryCrashBufferedWriter.position]
  | cons byte buffer =>
    have hall := (writeBytesToFD_spec results (byte :: buffer)).1.mpr h
    have hbytes := (writeBytesToFD_spec results (byte :: buffer)).2 hall
    have hposition : (byte :: buffer).length > 0 := Nat.succ_pos _
    simp only [flushBufferedWriter, SentryCrashBufferedWriter.position, hfd, hposition, hall,
      hbytes, and_self, if_true]

theorem flush_of_fails (hfd : writer.fd > 0) (h : WriteFails results writer.buffer) :
    ∃ reached, flushBufferedWriter writer results = ⟨false, writer, reached, false, 0⟩ := by
  have hposition : writer.position > 0 := by
    obtain ⟨i, _, hlt⟩ := h
    exact Nat.zero_lt_of_lt hlt
  have hsome : ¬(writeBytesToFD results writer.buffer).1 = true :=
    fun hall => (writeBytesToFD_spec results writer.buffer).1.mp hall h
  exact ⟨_, by simp [flushBufferedWriter, hfd, hposition, hsome]; rfl⟩

theorem flush_of_zero (hfd : ¬writer.fd > 0) :
    flushBufferedWriter writer results = ⟨true, writer, [], true, 0⟩ := by
  simp [flushBufferedWriter, hfd]

/-- Data that there is room for is copied behind what is in the buffer. -/
theorem write_of_room (h : writer.position + data.length ≤ writer.bufferLength) :
    writeBufferedWriter writer data flushResults results =
      ⟨true, { writer with buffer := writer.buffer ++ data }, [], true,
        writer.position + data.length⟩ := by
  have hroom : ¬(data.length : Int) > writer.bufferLength - writer.position := by omega
  have hfits : ¬data.length > writer.bufferLength := by omega
  simp only [writeBufferedWriter, if_neg hroom, if_neg hfits, List.length_append]
  rfl

/-- Without room the buffer is flushed first. -/
theorem write_of_flush (h : ¬writer.position + data.length ≤ writer.bufferLength) {flush : Call}
    (hflush : flushBufferedWriter writer flushResults = flush) :
    writeBufferedWriter writer data flushResults results =
      if data.length > flush.writer.bufferLength then
        ⟨(writeBytesToFD results data).1, flush.writer,
          flush.reached ++ (writeBytesToFD results data).2,
          flush.written && (writeBytesToFD results data).1, 0⟩
      else
        ⟨true, { flush.writer with buffer := flush.writer.buffer ++ data }, flush.reached,
          flush.written, (flush.writer.buffer ++ data).length⟩ := by
  have hroom : (data.length : Int) > writer.bufferLength - writer.position := by omega
  simp only [writeBufferedWriter, if_pos hroom, hflush]

/-- What a call has to do: stay in the buffer, and bring what was in the buffer to the file before
what it was given. -/
theorem correct_after_iff (h : Correct report) {call : Call} {input : Bytes}
    (hlength : call.writer.bufferLength = report.writer.bufferLength) :
    Correct (report.after call input) ↔
      call.writer.position ≤ report.writer.bufferLength ∧
      call.copyEnd ≤ report.writer.bufferLength ∧
      (report.allWritten = true → call.written = true →
        call.reached ++ call.writer.buffer = report.writer.buffer ++ input) := by
  have hcopies := h.copies
  have hcomplete : report.allWritten = true →
      ((report.file ++ call.reached) ++ call.writer.buffer = report.inputs ++ input ↔
        call.reached ++ call.writer.buffer = report.writer.buffer ++ input) := by
    intro hall
    rw [← h.complete hall, List.append_assoc, List.append_assoc, List.append_cancel_left_eq]
  constructor
  · rintro ⟨hposition, hcopy, hinputs⟩
    simp only [Report.after, hlength] at hposition hcopy hinputs
    exact ⟨hposition, by omega, fun hall hwritten =>
      (hcomplete hall).mp (hinputs (by rw [hall, hwritten]; rfl))⟩
  · rintro ⟨hposition, hcopy, hinputs⟩
    refine ⟨?_, ?_, fun hboth => ?_⟩
    · simp only [Report.after, hlength]
      exact hposition
    · simp only [Report.after, hlength]
      omega
    · simp only [Report.after, Bool.and_eq_true] at hboth
      exact (hcomplete hboth.1).mpr (hinputs hboth.1 hboth.2)

theorem correct_flush (h : Correct report) (results : List CallResult) :
    Correct (report.after (flushBufferedWriter report.writer results) []) := by
  have hposition := h.position
  by_cases hfd : report.writer.fd > 0
  · by_cases hfails : WriteFails results report.writer.buffer
    · obtain ⟨reached, hflush⟩ := flush_of_fails hfd hfails
      rw [hflush, correct_after_iff h rfl]
      exact ⟨hposition, Nat.zero_le _, nofun⟩
    · rw [flush_of_not_fails hfd hfails, correct_after_iff h rfl]
      exact ⟨Nat.zero_le _, Nat.zero_le _, fun _ _ => rfl⟩
  · rw [flush_of_zero hfd, correct_after_iff h rfl]
    exact ⟨hposition, Nat.zero_le _, fun _ _ => (List.append_nil _).symm⟩

/-- A flush that succeeds empties the buffer, and the data follows what was in it. -/
theorem correct_write_of_not_fails (h : Correct report) (hfd : report.writer.fd > 0)
    (hroom : ¬report.writer.position + data.length ≤ report.writer.bufferLength)
    (hfails : ¬WriteFails flushResults report.writer.buffer) :
    Correct (report.after (writeBufferedWriter report.writer data flushResults results) data) := by
  rw [write_of_flush hroom (flush_of_not_fails hfd hfails)]
  dsimp only
  by_cases hfits : data.length > report.writer.bufferLength
  · rw [if_pos hfits, correct_after_iff h rfl]
    refine ⟨Nat.zero_le _, Nat.zero_le _, fun _ hwritten => ?_⟩
    simp only [Bool.true_and] at hwritten
    rw [List.append_nil, (writeBytesToFD_spec results data).2 hwritten]
  · rw [if_neg hfits, correct_after_iff h rfl]
    exact ⟨Nat.not_lt.mp hfits, Nat.not_lt.mp hfits, fun _ _ => rfl⟩

/-- A flush that fails leaves the buffer as it is, and what is copied behind it goes outside. -/
theorem correct_write_of_fails (h : Correct report) (hfd : report.writer.fd > 0)
    (hroom : ¬report.writer.position + data.length ≤ report.writer.bufferLength)
    (hfails : WriteFails flushResults report.writer.buffer) :
    Correct (report.after (writeBufferedWriter report.writer data flushResults results) data) ↔
      data.length > report.writer.bufferLength := by
  have hposition := h.position
  obtain ⟨reached, hflush⟩ := flush_of_fails hfd hfails
  rw [write_of_flush hroom hflush]
  dsimp only
  by_cases hfits : data.length > report.writer.bufferLength
  · rw [if_pos hfits, correct_after_iff h rfl]
    exact ⟨fun _ => hfits, fun _ => ⟨hposition, Nat.zero_le _, nofun⟩⟩
  · rw [if_neg hfits, correct_after_iff h rfl]
    refine ⟨fun hcall => absurd hcall.2.1 ?_, fun hover => absurd hover hfits⟩
    rw [List.length_append]
    exact hroom

/-- Nothing is flushed to a descriptor that is zero. -/
theorem correct_write_of_zero (h : Correct report) (hfd : ¬report.writer.fd > 0)
    (hroom : ¬report.writer.position + data.length ≤ report.writer.bufferLength) :
    Correct (report.after (writeBufferedWriter report.writer data flushResults results) data) ↔
      report.writer.bufferLength < data.length ∧
        (report.allWritten = true → ¬WriteFails results data →
          data ++ report.writer.buffer = report.writer.buffer ++ data) := by
  have hposition := h.position
  have hwrite := writeBytesToFD_spec results data
  rw [write_of_flush hroom (flush_of_zero hfd)]
  dsimp only
  by_cases hfits : data.length > report.writer.bufferLength
  · rw [if_pos hfits, correct_after_iff h rfl]
    simp only [Bool.true_and, List.nil_append]
    constructor
    · rintro ⟨_, _, hinputs⟩
      refine ⟨hfits, fun hall hfails => ?_⟩
      have hwritten := hwrite.1.mpr hfails
      rw [← hinputs hall hwritten, hwrite.2 hwritten]
    · rintro ⟨_, hinputs⟩
      refine ⟨hposition, Nat.zero_le _, fun hall hwritten => ?_⟩
      rw [hwrite.2 hwritten]
      exact hinputs hall (hwrite.1.mp hwritten)
  · rw [if_neg hfits, correct_after_iff h rfl]
    refine ⟨fun hcall => absurd hcall.2.1 ?_, fun hover => absurd hover.1 hfits⟩
    rw [List.length_append]
    exact hroom

theorem correct_write_iff (h : Correct report) :
    Correct (report.after (writeBufferedWriter report.writer data flushResults results) data) ↔
      MakesRoom report (.write data flushResults results) := by
  simp only [MakesRoom]
  by_cases hroom : report.writer.position + data.length ≤ report.writer.bufferLength
  · rw [write_of_room hroom, correct_after_iff h rfl]
    refine ⟨fun _ => Or.inl hroom, fun _ => ⟨?_, hroom, fun _ _ => rfl⟩⟩
    simp only [SentryCrashBufferedWriter.position, List.length_append]
    exact hroom
  · rw [or_iff_right hroom]
    by_cases hfd : report.writer.fd > 0
    · rw [if_pos hfd]
      by_cases hfails : WriteFails flushResults report.writer.buffer
      · rw [correct_write_of_fails h hfd hroom hfails]
        exact ⟨fun hover hfits => absurd hfits (by omega),
          fun himp => Nat.not_le.mp fun hfits => himp hfits hfails⟩
      · exact ⟨fun _ _ => hfails, fun _ => correct_write_of_not_fails h hfd hroom hfails⟩
    · rw [if_neg hfd]
      exact correct_write_of_zero h hfd hroom

theorem correct_step_iff {event : Event} {report' : Report} (h : Correct report)
    (hstep : step report event = some report') : Correct report' ↔ MakesRoom report event := by
  cases event with
  | write data flushResults results =>
    cases hstep
    exact correct_write_iff h
  | flush results =>
    cases hstep
    exact iff_of_true (correct_flush h results) trivial

/-- Everything stays in the buffer and nothing is lost exactly in the runs in which every write
that needs the room of the buffer gets it. -/
theorem always_correct_iff_makesRoom (fd writeBufferLength : Nat) (events : List Event) :
    Always step Correct (Report.opened fd writeBufferLength) events ↔
      Allowed step MakesRoom (Report.opened fd writeBufferLength) events :=
  always_iff_allowed (fun _ h => h) (fun _ _ _ h hroom hstep => (correct_step_iff h hstep).mpr hroom)
    (fun _ _ _ h hroom hstep hright => hroom ((correct_step_iff h hstep).mp hright))
    ⟨Nat.zero_le _, Nat.zero_le _, fun _ => rfl⟩ events

/-- The disk is full when the buffer of four bytes has to be flushed. -/
def exampleFullDisk : List Event := [.write [97, 98, 99] [] [], .write [100, 101] [.error] []]

theorem exampleFullDisk_overflows :
    (exec step (Report.opened 3 4) exampleFullDisk).map (fun report =>
      (report.writer.position, report.copyEnd, report.writer.bufferLength)) = some (5, 5, 4) ∧
      ¬Always step Correct (Report.opened 3 4) exampleFullDisk := by
  have hrun : (exec step (Report.opened 3 4) exampleFullDisk).map (fun report =>
      (report.writer.position, report.copyEnd, report.writer.bufferLength)) = some (5, 5, 4) := by
    decide
  refine ⟨hrun, fun hright => ?_⟩
  obtain ⟨report, hexec, hreport⟩ := Option.map_eq_some_iff.mp hrun
  have hposition := (hright.exec hexec).position
  simp only [Prod.mk.injEq] at hreport
  omega

end SentryCocoa.BufferedWriter
