import SentryCocoa.CrashMemory

/-! Tests of ranges of memory. A range is tested in blocks of the size of a buffer, and the block
that is copied to it is thrown away. -/
namespace SentryCocoa.CrashMemory

variable {memory : Memory} (copySafely : CopySafely memory)

/-- The size of `g_memoryTestBuffer`. -/
def testBufferSize : Nat := 10240

/-- The loop of `isMemoryReadable`, with the bytes that remain when it is over. -/
def readableLoop (address bytesRemaining : Nat) (testBuffer : Buffer) : Nat × Buffer :=
  if bytesRemaining > 0 then
    let bytesToCopy :=
      if bytesRemaining > testBufferSize then testBufferSize else bytesRemaining
    let attempt := copySafely.call address testBuffer 0 bytesToCopy
    if attempt.1 ≠ bytesToCopy then (bytesRemaining, attempt.2)
    else readableLoop address (bytesRemaining - bytesToCopy) attempt.2
  else (bytesRemaining, testBuffer)
termination_by bytesRemaining
decreasing_by
  unfold testBufferSize
  split <;> omega

def isMemoryReadable (address byteCount : Nat) (testBuffer : Buffer) : Bool × Buffer :=
  let done := readableLoop copySafely address byteCount testBuffer
  (done.1 == 0, done.2)

/-- The loop of `sentrycrashmem_maxReadableBytes`, with the position and the bytes that remain
when it is over. -/
def maxReadableLoop (currentPosition bytesRemaining : Nat) (testBuffer : Buffer) :
    Nat × Nat × Buffer :=
  if bytesRemaining > testBufferSize then
    let block := isMemoryReadable copySafely currentPosition testBufferSize testBuffer
    if ¬block.1 then (currentPosition, bytesRemaining, block.2)
    else maxReadableLoop (currentPosition + testBufferSize) (bytesRemaining - testBufferSize)
      block.2
  else (currentPosition, bytesRemaining, testBuffer)
termination_by bytesRemaining
decreasing_by
  unfold testBufferSize at *
  omega

def maxReadableBytes (address tryByteCount : Nat) (testBuffer : Buffer) : Int × Buffer :=
  let done := maxReadableLoop copySafely address tryByteCount testBuffer
  let copied := copyMaxPossible copySafely done.1 done.2.2 testBufferSize
  let bytesRemaining : Int := done.2.1 - copied.1
  (tryByteCount - bytesRemaining, copied.2)

/-! ## Ranges -/

variable {address count : Nat}

theorem Memory.ReadableRange.mono {n : Nat} (h : memory.ReadableRange address n)
    (hle : count ≤ n) : memory.ReadableRange address count :=
  fun i hi => h i (hi.trans_le hle)

theorem bytesToCopy_eq (bytesRemaining : Nat) :
    (if bytesRemaining > testBufferSize then testBufferSize else bytesRemaining) =
      min bytesRemaining testBufferSize := by
  split <;> omega

theorem readableLoop_stop {bytesRemaining : Nat} (hmore : 0 < bytesRemaining)
    (hread : ¬memory.ReadableRange address (min bytesRemaining testBufferSize))
    (testBuffer : Buffer) :
    (readableLoop copySafely address bytesRemaining testBuffer).1 = bytesRemaining := by
  rw [readableLoop, if_pos hmore, bytesToCopy_eq]
  dsimp only
  rw [if_pos fun hall => hread ((copySafely.result _ _ _ _).mp hall)]

theorem readableLoop_next {bytesRemaining : Nat} (hmore : 0 < bytesRemaining)
    (hread : memory.ReadableRange address (min bytesRemaining testBufferSize))
    (testBuffer : Buffer) :
    ∃ testBuffer', readableLoop copySafely address bytesRemaining testBuffer =
      readableLoop copySafely address (bytesRemaining - min bytesRemaining testBufferSize)
        testBuffer' := by
  refine ⟨(copySafely.call address testBuffer 0 (min bytesRemaining testBufferSize)).2, ?_⟩
  rw [readableLoop, if_pos hmore, bytesToCopy_eq]
  dsimp only
  rw [if_neg (not_not.mpr ((copySafely.result _ _ _ _).mpr hread))]

/-- The pointer stays where it is, so every block that is tried is the first one. -/
theorem isMemoryReadable_iff (address bytesRemaining : Nat) (testBuffer : Buffer) :
    (isMemoryReadable copySafely address bytesRemaining testBuffer).1 = true ↔
      memory.ReadableRange address (min bytesRemaining testBufferSize) := by
  unfold isMemoryReadable
  rw [beq_iff_eq]
  induction bytesRemaining using Nat.strongRecOn generalizing testBuffer with
  | ind bytesRemaining ih =>
    by_cases hmore : 0 < bytesRemaining
    · by_cases hread : memory.ReadableRange address (min bytesRemaining testBufferSize)
      · obtain ⟨testBuffer', hnext⟩ := readableLoop_next copySafely hmore hread testBuffer
        have hshorter : bytesRemaining - min bytesRemaining testBufferSize < bytesRemaining := by
          unfold testBufferSize
          omega
        rw [hnext, ih _ hshorter]
        exact ⟨fun _ => hread, fun _ => hread.mono (by omega)⟩
      · rw [readableLoop_stop copySafely hmore hread]
        exact ⟨fun hzero => absurd hzero (by omega), fun h => absurd h hread⟩
    · rw [readableLoop, if_neg hmore]
      exact ⟨fun _ i hi => absurd hi (by omega), fun _ => by omega⟩

/-- Where the loop over the blocks ends: behind blocks that can be read, and in front of one
that cannot, or of the last bytes. -/
structure BlocksRead (memory : Memory) (address tryByteCount currentPosition bytesRemaining : Nat) :
    Prop where
  position : currentPosition + bytesRemaining = address + tryByteCount
  blocks : testBufferSize ∣ currentPosition - address
  start : address ≤ currentPosition
  readable : memory.ReadableRange address (currentPosition - address)
  rest : bytesRemaining ≤ testBufferSize ∧ (0 < tryByteCount → 0 < bytesRemaining) ∨
    testBufferSize < bytesRemaining ∧ ¬memory.ReadableRange currentPosition testBufferSize

theorem blocksRead_loop {tryByteCount currentPosition bytesRemaining : Nat} (testBuffer : Buffer)
    (position : currentPosition + bytesRemaining = address + tryByteCount)
    (blocks : testBufferSize ∣ currentPosition - address) (start : address ≤ currentPosition)
    (readable : memory.ReadableRange address (currentPosition - address))
    (hmore : 0 < tryByteCount → 0 < bytesRemaining) :
    BlocksRead memory address tryByteCount
      (maxReadableLoop copySafely currentPosition bytesRemaining testBuffer).1
      (maxReadableLoop copySafely currentPosition bytesRemaining testBuffer).2.1 := by
  induction bytesRemaining using Nat.strongRecOn generalizing currentPosition testBuffer with
  | ind bytesRemaining ih =>
    have hblock := isMemoryReadable_iff copySafely currentPosition testBufferSize testBuffer
    rw [Nat.min_self] at hblock
    rw [maxReadableLoop]
    dsimp only
    by_cases hlarge : bytesRemaining > testBufferSize
    · rw [if_pos hlarge]
      by_cases hread : memory.ReadableRange currentPosition testBufferSize
      · rw [if_neg (not_not.mpr (hblock.mpr hread))]
        have hposition : currentPosition + testBufferSize - address =
            currentPosition - address + testBufferSize := by omega
        have hsize : 0 < testBufferSize := by decide
        apply ih _ (by omega) _ (by omega)
        · rw [hposition]
          exact Nat.dvd_add blocks (Nat.dvd_refl _)
        · omega
        · rw [hposition]
          apply readable.append
          rw [Nat.add_sub_of_le start]
          exact hread
        · exact fun _ => by omega
      · rw [if_pos fun h => hread (hblock.mp h)]
        exact ⟨position, blocks, start, readable, Or.inr ⟨hlarge, hread⟩⟩
    · rw [if_neg hlarge]
      exact ⟨position, blocks, start, readable, Or.inl ⟨Nat.not_lt.mp hlarge, hmore⟩⟩

/-! ## The longest prefix of a range -/

theorem Memory.LongestPrefix.eq {n m : Nat} (h : memory.LongestPrefix address count n)
    (h' : memory.LongestPrefix address count m) : n = m := IsGreatest.unique h h'

/-- What can be read in front of a place is a part of what can be read at all. -/
theorem Memory.LongestPrefix.append {first rest n : Nat}
    (hfirst : memory.ReadableRange address first)
    (h : memory.LongestPrefix (address + first) rest n) :
    memory.LongestPrefix address (first + rest) (first + n) := by
  obtain ⟨⟨hle, hread⟩, hgreatest⟩ := h
  refine ⟨⟨Nat.add_le_add_left hle first, hfirst.append hread⟩, ?_⟩
  rintro m ⟨hm, hmread⟩
  by_contra hlarge
  have hmore : m - first ≤ n := by
    apply hgreatest
    refine ⟨by omega, fun i hi => ?_⟩
    have hbyte := hmread (first + i) (by omega)
    rwa [← Nat.add_assoc] at hbyte
  omega

theorem Memory.LongestPrefix.of_le {larger n : Nat} (hle : count ≤ larger)
    (h : memory.LongestPrefix address larger n) (hn : n ≤ count) :
    memory.LongestPrefix address count n :=
  ⟨⟨hn, h.1.2⟩, fun _ hm => h.2 ⟨hm.1.trans hle, hm.2⟩⟩

/-- The whole range can be read, and nothing of it is left out. -/
theorem Memory.longestPrefix_self_iff :
    memory.LongestPrefix address count count ↔ memory.ReadableRange address count :=
  ⟨fun h => h.1.2, Memory.longestPrefix_all⟩

/-- The last bytes are copied as if the block went on to its end. -/
theorem maxReadableBytes_spec (address tryByteCount : Nat) (testBuffer : Buffer) :
    ∃ first rest copied,
      (maxReadableBytes copySafely address tryByteCount testBuffer).1 = (first + copied : Nat) ∧
        first + rest = tryByteCount ∧ testBufferSize ∣ first ∧
        memory.ReadableRange address first ∧
        memory.LongestPrefix (address + first) testBufferSize copied ∧
        (rest ≤ testBufferSize ∧ (0 < tryByteCount → 0 < rest) ∨
          testBufferSize < rest ∧ copied < testBufferSize) := by
  have hblocks : BlocksRead memory address tryByteCount
      (maxReadableLoop copySafely address tryByteCount testBuffer).1
      (maxReadableLoop copySafely address tryByteCount testBuffer).2.1 := by
    apply blocksRead_loop copySafely testBuffer rfl _ (Nat.le_refl _) _ id
    · simp
    · exact fun i hi => absurd hi (by omega)
  unfold maxReadableBytes
  generalize maxReadableLoop copySafely address tryByteCount testBuffer = done at hblocks ⊢
  obtain ⟨currentPosition, bytesRemaining, testBuffer'⟩ := done
  dsimp only at hblocks ⊢
  obtain ⟨hposition, hdvd, hstart, hread, hrest⟩ := hblocks
  have hcopied := (copied_copyMaxPossible copySafely currentPosition testBuffer'
    testBufferSize).longest
  generalize (copyMaxPossible copySafely currentPosition testBuffer' testBufferSize).1 = copied
    at hcopied ⊢
  have hplace : address + (currentPosition - address) = currentPosition := by omega
  refine ⟨currentPosition - address, bytesRemaining, copied, by omega, by omega, hdvd, hread,
    by rwa [hplace], ?_⟩
  rcases hrest with hsmall | ⟨hlarge, hunread⟩
  · exact Or.inl hsmall
  · refine Or.inr ⟨hlarge, Nat.lt_of_le_of_ne hcopied.1.1 fun hall => hunread ?_⟩
    rw [← hall]
    exact hcopied.1.2

/-- A range of which not all can be read is measured right. -/
theorem maxReadableBytes_of_not_all (address tryByteCount : Nat) (testBuffer : Buffer)
    (hall : ¬memory.ReadableRange address tryByteCount) :
    ∃ count : Nat, (maxReadableBytes copySafely address tryByteCount testBuffer).1 = count ∧
      memory.LongestPrefix address tryByteCount count := by
  obtain ⟨first, rest, copied, hresult, rfl, -, hfirst, hcopied, hrest⟩ :=
    maxReadableBytes_spec copySafely address tryByteCount testBuffer
  refine ⟨first + copied, hresult, ?_⟩
  have hwhole := Memory.LongestPrefix.append hfirst hcopied
  rcases hrest with ⟨hsmall, -⟩ | ⟨hlarge, hless⟩
  · have hshort : copied < rest := by
      by_contra hlong
      exact hall (hfirst.append (hcopied.1.2.mono (Nat.not_lt.mp hlong)))
    exact hwhole.of_le (by omega) (by omega)
  · refine ⟨⟨by omega, hfirst.append hcopied.1.2⟩, fun m hm => ?_⟩
    by_contra hmore
    have hnext : first + copied + 1 ≤ first + copied := by
      apply hwhole.2
      exact ⟨by omega, hm.2.mono (by omega)⟩
    omega

/-- Of a range that can be read the bytes behind it are counted too, up to the next multiple of
the size of the buffer. -/
theorem maxReadableBytes_of_all (address tryByteCount : Nat) (testBuffer : Buffer)
    (hall : memory.ReadableRange address tryByteCount) :
    (maxReadableBytes copySafely address tryByteCount testBuffer).1 = tryByteCount ↔
      0 < tryByteCount ∧ testBufferSize ∣ tryByteCount ∨
        memory.readable (address + tryByteCount) = false := by
  obtain ⟨first, rest, copied, hresult, rfl, hdvd, hfirst, hcopied, hrest⟩ :=
    maxReadableBytes_spec copySafely address tryByteCount testBuffer
  have htail : memory.ReadableRange (address + first) rest := by
    intro i hi
    have hbyte := hall (first + i) (by omega)
    rwa [← Nat.add_assoc] at hbyte
  have hsmall : rest ≤ testBufferSize ∧ (0 < first + rest → 0 < rest) := by
    rcases hrest with hsmall | ⟨hlarge, hless⟩
    · exact hsmall
    · have hmore := hcopied.2 ⟨Nat.le_refl _, htail.mono hlarge.le⟩
      omega
  have hless : rest ≤ copied := hcopied.2 ⟨hsmall.1, htail⟩
  have hbehind : address + (first + rest) = address + first + rest := by omega
  rw [hresult, hbehind]
  constructor
  · intro hsame
    have hcount : copied = rest := by omega
    by_cases hfull : rest = testBufferSize
    · left
      rw [hfull]
      exact ⟨Nat.lt_of_lt_of_le (by decide) (Nat.le_add_left _ _),
        Nat.dvd_add hdvd (Nat.dvd_refl _)⟩
    · right
      by_contra hbyte
      rw [Bool.not_eq_false] at hbyte
      have hnext := hcopied.2 ⟨show rest + 1 ≤ testBufferSize by omega,
        htail.append (Memory.readableRange_one.mpr hbyte)⟩
      omega
  · rintro (⟨hpositive, hmultiple⟩ | hbyte)
    · have hrestMultiple := Nat.le_of_dvd (hsmall.2 hpositive)
        ((Nat.dvd_add_right hdvd).mp hmultiple)
      have hbound := hcopied.1.1
      omega
    · have hbound : ¬rest < copied := by
        intro hmore
        rw [hcopied.1.2 rest hmore] at hbyte
        cases hbyte
      omega

/-! ## When the answers are right -/

/-- The range can be read exactly if the one function says so, and the other one says how much
of it can be. -/
def TestedRight (address byteCount : Nat) (testBuffer : Buffer) : Prop :=
  ((isMemoryReadable copySafely address byteCount testBuffer).1 = true ↔
      memory.ReadableRange address byteCount) ∧
    ∃ count : Nat, (maxReadableBytes copySafely address byteCount testBuffer).1 = count ∧
      memory.LongestPrefix address byteCount count

/-- Of a range that is larger than the buffer not only the first block can be read, but all of
it; and behind a range that can be read there is a byte that cannot, if the last block of the
range does not fill the buffer. -/
theorem testedRight_iff (address byteCount : Nat) (testBuffer : Buffer) :
    TestedRight copySafely address byteCount testBuffer ↔
      (memory.ReadableRange address (min byteCount testBufferSize) →
          memory.ReadableRange address byteCount) ∧
        (memory.ReadableRange address byteCount →
          0 < byteCount ∧ testBufferSize ∣ byteCount ∨
            memory.readable (address + byteCount) = false) := by
  unfold TestedRight
  rw [isMemoryReadable_iff]
  constructor
  · rintro ⟨hreadable, count, hcount, hlongest⟩
    refine ⟨hreadable.mp, fun hall => ?_⟩
    apply (maxReadableBytes_of_all copySafely address byteCount testBuffer hall).mp
    rw [hcount, hlongest.eq (Memory.longestPrefix_all hall)]
  · rintro ⟨hfirst, hbehind⟩
    refine ⟨⟨hfirst, fun hall => hall.mono (Nat.min_le_left _ _)⟩, ?_⟩
    by_cases hall : memory.ReadableRange address byteCount
    · refine ⟨byteCount, ?_, Memory.longestPrefix_all hall⟩
      exact (maxReadableBytes_of_all copySafely address byteCount testBuffer hall).mpr (hbehind hall)
    · exact maxReadableBytes_of_not_all copySafely address byteCount testBuffer hall

/-- Memory of the size, and nothing behind it. -/
def exampleMemory (size : Nat) : Memory where
  readable address := address < size
  byte _ := 0

/-- A range of two blocks of which only the first can be read, and a range of one byte with
another one behind it. -/
theorem exampleMemory_testedWrong :
    ¬TestedRight (.allOrNothing (exampleMemory 10240)) 0 20480 (fun _ => 0) ∧
      ¬TestedRight (.allOrNothing (exampleMemory 2)) 0 1 (fun _ => 0) := by
  constructor
  · rintro ⟨hreadable, -⟩
    have hfirst : (exampleMemory 10240).ReadableRange 0 (min 20480 testBufferSize) := by
      intro i hi
      have hsize : i < 10240 := hi.trans_le (Nat.min_le_right _ _)
      exact decide_eq_true (by omega)
    have hall := hreadable.mp ((isMemoryReadable_iff _ _ _ _).mpr hfirst)
    have hbyte := hall 10240 (by decide)
    exact absurd hbyte (by decide)
  · rintro ⟨-, count, hcount, hlongest⟩
    have hall : (exampleMemory 2).ReadableRange 0 1 := Memory.readableRange_one.mpr (by decide)
    rw [hlongest.eq (Memory.longestPrefix_all hall)] at hcount
    rcases (maxReadableBytes_of_all _ _ 1 _ hall).mp hcount with ⟨-, hmultiple⟩ | hbyte
    · exact absurd hmultiple (by decide)
    · exact absurd hbyte (by decide)

/-! ## Messages -/

theorem maxReadableBytes_readable (address tryByteCount : Nat) (testBuffer : Buffer) :
    ∃ count : Nat, (maxReadableBytes copySafely address tryByteCount testBuffer).1 = count ∧
      memory.ReadableRange address count ∧
      ∀ n ≤ tryByteCount, memory.ReadableRange address n → n ≤ count := by
  by_cases hall : memory.ReadableRange address tryByteCount
  · obtain ⟨first, rest, copied, hresult, rfl, -, hfirst, hcopied, hrest⟩ :=
      maxReadableBytes_spec copySafely address tryByteCount testBuffer
    refine ⟨first + copied, hresult, hfirst.append hcopied.1.2, fun n hn hread => ?_⟩
    have htail : memory.ReadableRange (address + first) (min rest testBufferSize) := by
      intro i hi
      have hbyte := hall (first + i) (by omega)
      rwa [← Nat.add_assoc] at hbyte
    have hless := hcopied.2 ⟨Nat.min_le_right _ _, htail⟩
    omega
  · obtain ⟨count, hresult, hlongest⟩ :=
      maxReadableBytes_of_not_all copySafely address tryByteCount testBuffer hall
    exact ⟨count, hresult, hlongest.1.2, fun n hn hread => hlongest.2 ⟨hn, hread⟩⟩

def MaxCrashInfoStringLength : Nat := 1024

/-- A byte of memory, where it can be read. -/
def Memory.read (memory : Memory) (address : Nat) : Option UInt8 :=
  if memory.readable address then some (memory.byte address) else none

/-- So many bytes are read, until one of them is the NUL. -/
def findNul (memory : Memory) : (str count : Nat) → Option Bool
  | _, 0 => some false
  | str, count + 1 => do
    if (← memory.read str) = 0 then some true else findNul memory (str + 1) count

/-- The pointer may be NULL. There is no result if memory is read that cannot be. -/
def isValidCrashInfoMessage (str : Option Nat) (testBuffer : Buffer) : Option Bool :=
  match str with
  | none => some false
  | some str =>
    let maxReadableBytes :=
      (maxReadableBytes copySafely str (MaxCrashInfoStringLength + 1) testBuffer).1
    if maxReadableBytes = 0 then some false else findNul memory str maxReadableBytes.toNat

theorem findNul_eq {str count : Nat} (hread : memory.ReadableRange str count) :
    ∃ found, findNul memory str count = some found ∧
      (found = true ↔ ∃ i < count, memory.byte (str + i) = 0) := by
  induction count generalizing str with
  | zero => exact ⟨false, rfl, by simp⟩
  | succ count ih =>
    have hfirst : memory.read str = some (memory.byte str) := if_pos (hread 0 (Nat.succ_pos _))
    rw [findNul, hfirst]
    by_cases hnul : memory.byte str = 0
    · refine ⟨true, if_pos hnul, fun _ => ⟨0, Nat.succ_pos _, hnul⟩, fun _ => rfl⟩
    · have hrest : memory.ReadableRange (str + 1) count := by
        intro i hi
        have hbyte := hread (1 + i) (by omega)
        rwa [← Nat.add_assoc] at hbyte
      obtain ⟨found, hfound, hiff⟩ := ih hrest
      refine ⟨found, (if_neg hnul).trans hfound, hiff.trans ?_⟩
      rw [Nat.exists_lt_succ_left]
      have hplace : ∀ i, str + 1 + i = str + (i + 1) := fun i => by omega
      simp only [hplace, Nat.add_zero, hnul, false_or]

/-- Only memory that can be read is read, and a message that is short enough is found valid
exactly if it ends there. -/
theorem isValidCrashInfoMessage_eq (str : Nat) (testBuffer : Buffer) :
    ∃ valid, isValidCrashInfoMessage copySafely (some str) testBuffer = some valid ∧
      (valid = true → ∃ i, memory.ReadableRange str (i + 1) ∧ memory.byte (str + i) = 0) ∧
      ∀ i ≤ MaxCrashInfoStringLength, memory.ReadableRange str (i + 1) →
        memory.byte (str + i) = 0 → valid = true := by
  obtain ⟨count, hcount, hread, hlongest⟩ :=
    maxReadableBytes_readable copySafely str (MaxCrashInfoStringLength + 1) testBuffer
  have hresult : isValidCrashInfoMessage copySafely (some str) testBuffer =
      findNul memory str count := by
    unfold isValidCrashInfoMessage
    dsimp only
    rw [hcount, Int.toNat_natCast]
    split
    · rename_i hzero
      rw [Int.natCast_eq_zero.mp hzero]
      rfl
    · rfl
  obtain ⟨valid, hvalid, hiff⟩ := findNul_eq hread
  refine ⟨valid, hresult.trans hvalid, fun htrue => ?_, fun i hi hreadable hnul => ?_⟩
  · obtain ⟨i, hi, hnul⟩ := hiff.mp htrue
    exact ⟨i, hread.mono hi, hnul⟩
  · exact hiff.mpr ⟨i, hlongest (i + 1) (by omega) hreadable, hnul⟩

end SentryCocoa.CrashMemory
