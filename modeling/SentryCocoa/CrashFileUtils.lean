import Mathlib.Algebra.BigOperators.Group.List.Basic
import Mathlib.Algebra.Group.Int.Defs
import Mathlib.Algebra.Ring.Nat
import Mathlib.Data.List.Basic

/-! Bytes that are read from and written to a file descriptor, as many at a time as the system
calls let through. -/
namespace SentryCocoa.CrashFileUtils

abbrev Bytes := List UInt8

/-- What one call of `read` or `write` does: it fails, or it moves at
most `most + 1` bytes. -/
inductive CallResult where
  | error
  | upTo (most : Nat)
deriving DecidableEq

def CallResult.amount : CallResult → Nat
  | .error => 0
  | .upTo most => most + 1

/-- `sentrycrashfu_readBytesFromFD`, with what is left of the file behind the position of the
descriptor, and what each call of `read` does. The bytes are what stands in the buffer. -/
def readBytesFromFD : (fuel : Nat) → (results : Nat → CallResult) → (rest : Bytes) →
    (length : Int) → Option (Bool × Bytes)
  | 0, _, _, _ => none
  | fuel + 1, results, rest, length =>
    if length > 0 then
      match results 0 with
      | .error => some (false, [])
      | .upTo most =>
        let bytesRead := rest.take (min (most + 1) length.toNat)
        (readBytesFromFD fuel (fun i => results (i + 1)) (rest.drop bytesRead.length)
          (length - bytesRead.length)).map fun (isSuccessful, bytes) =>
            (isSuccessful, bytesRead ++ bytes)
    else some (true, [])

/-- Some call fails before the ones before it have read everything. -/
def ReadFails (results : Nat → CallResult) (rest : Bytes) (length : Int) : Prop :=
  ∃ i, results i = .error ∧
    (min rest.length ((List.range i).map fun j => (results j).amount).sum : Int) < length

/-- It ends, and with success exactly when the file was long enough and no call failed. The
bytes are those of the file then. -/
def ReadCorrectly (results : Nat → CallResult) (rest : Bytes) (length : Int) : Prop :=
  ∃ fuel isSuccessful bytes,
    readBytesFromFD fuel results rest length = some (isSuccessful, bytes) ∧
      (isSuccessful = true ↔ length ≤ rest.length ∧ ¬ReadFails results rest length) ∧
      (isSuccessful = true → bytes = rest.take length.toNat)

variable {results : Nat → CallResult} {rest : Bytes} {length : Int}

theorem ReadFails.error (h : ReadFails results rest length) : ∃ i, results i = .error := by
  obtain ⟨i, hi, _⟩ := h
  exact ⟨i, hi⟩

theorem not_readFails_of_nonpos (h : length ≤ 0) : ¬ReadFails results rest length := by
  rintro ⟨i, hi, hlt⟩
  omega

/-- What one call has read is no longer asked for. -/
theorem readFails_succ {most : Nat} (hfirst : results 0 = .upTo most) (hlength : 0 < length) :
    ReadFails results rest length ↔
      ReadFails (fun i => results (i + 1))
        (rest.drop (rest.take (min (most + 1) length.toNat)).length)
        (length - (rest.take (min (most + 1) length.toNat)).length) := by
  have hsum : ∀ i, ((List.range (i + 1)).map fun j => (results j).amount).sum =
      most + 1 + ((List.range i).map fun j => (results (j + 1)).amount).sum := by
    intro i
    rw [List.range_succ_eq_map, List.map_cons, List.sum_cons, List.map_map, hfirst]
    rfl
  constructor
  · rintro ⟨i, hi, hlt⟩
    cases i with
    | zero =>
      rw [hfirst] at hi
      cases hi
    | succ i =>
      refine ⟨i, hi, ?_⟩
      rw [hsum] at hlt
      simp only [List.length_take, List.length_drop]
      omega
  · rintro ⟨i, hi, hlt⟩
    refine ⟨i + 1, hi, ?_⟩
    rw [hsum]
    simp only [List.length_take, List.length_drop] at hlt
    omega

theorem readBytesFromFD_error {fuel : Nat} (hlength : 0 < length) (hfirst : results 0 = .error) :
    readBytesFromFD (fuel + 1) results rest length = some (false, []) := by
  rw [readBytesFromFD, if_pos hlength, hfirst]

theorem readBytesFromFD_upTo {fuel most : Nat} (hlength : 0 < length)
    (hfirst : results 0 = .upTo most) :
    readBytesFromFD (fuel + 1) results rest length =
      (readBytesFromFD fuel (fun i => results (i + 1))
        (rest.drop (rest.take (min (most + 1) length.toNat)).length)
        (length - (rest.take (min (most + 1) length.toNat)).length)).map
          fun (isSuccessful, bytes) =>
            (isSuccessful, rest.take (min (most + 1) length.toNat) ++ bytes) := by
  rw [readBytesFromFD, if_pos hlength, hfirst]

theorem readBytesFromFD_nonpos {fuel : Nat} (hlength : length ≤ 0) :
    readBytesFromFD (fuel + 1) results rest length = some (true, []) := by
  rw [readBytesFromFD, if_neg (Int.not_lt.mpr hlength)]

/-- What comes out when something comes out. -/
theorem readBytesFromFD_sound {fuel : Nat} {isSuccessful : Bool} {bytes : Bytes}
    (h : readBytesFromFD fuel results rest length = some (isSuccessful, bytes)) :
    if isSuccessful then
      length ≤ rest.length ∧ ¬ReadFails results rest length ∧ bytes = rest.take length.toNat
    else ReadFails results rest length := by
  induction fuel generalizing results rest length bytes with
  | zero => cases h
  | succ fuel ih =>
    by_cases hlength : 0 < length
    · cases hfirst : results 0 with
      | error =>
        rw [readBytesFromFD_error hlength hfirst] at h
        cases h
        refine ⟨0, hfirst, ?_⟩
        rw [List.range_zero, List.map_nil, List.sum_nil]
        omega
      | upTo most =>
        rw [readBytesFromFD_upTo hlength hfirst, Option.map_eq_some_iff] at h
        obtain ⟨⟨_, later⟩, hlater, heq⟩ := h
        cases heq
        have hrest := ih hlater
        rw [← readFails_succ hfirst hlength] at hrest
        cases isSuccessful with
        | false => exact hrest
        | true =>
          obtain ⟨hlong, hfails, rfl⟩ := hrest
          simp only [List.length_take, List.length_drop] at hlong
          refine ⟨by omega, hfails, ?_⟩
          generalize hread : min (most + 1) length.toNat = read
          rw [List.length_take, Nat.min_eq_left (by omega),
            show length.toNat = read + (length - read).toNat by omega, List.take_add]
    · rw [readBytesFromFD_nonpos (Int.not_lt.mp hlength)] at h
      cases h
      have hzero : length.toNat = 0 := by omega
      rw [hzero]
      exact ⟨by omega, not_readFails_of_nonpos (Int.not_lt.mp hlength), rfl⟩

/-- A file that is long enough is read to the end of what is asked for. -/
theorem exists_of_length_le (results : Nat → CallResult) (rest : Bytes) (length : Int)
    (h : length ≤ rest.length) :
    ∃ fuel out, readBytesFromFD fuel results rest length = some out := by
  induction hn : length.toNat using Nat.strongRecOn generalizing results rest length with
  | ind n ih =>
    by_cases hlength : 0 < length
    · cases hfirst : results 0 with
      | error => exact ⟨1, _, readBytesFromFD_error hlength hfirst⟩
      | upTo most =>
        have hread : (rest.take (min (most + 1) length.toNat)).length =
            min (most + 1) length.toNat := by
          rw [List.length_take]
          omega
        obtain ⟨fuel, out, hout⟩ := ih
          (length - (rest.take (min (most + 1) length.toNat)).length).toNat (by omega)
          (fun i => results (i + 1))
          (rest.drop (rest.take (min (most + 1) length.toNat)).length) _
          (by rw [List.length_drop]; omega) rfl
        refine ⟨fuel + 1, Option.isSome_iff_exists.mp ?_⟩
        rw [readBytesFromFD_upTo hlength hfirst, hout]
        rfl
    · exact ⟨1, _, readBytesFromFD_nonpos (Int.not_lt.mp hlength)⟩

/-- A call that fails ends the loop, if nothing else does before. -/
theorem exists_of_error (results : Nat → CallResult) (rest : Bytes) (length : Int) {i : Nat}
    (hi : results i = .error) :
    ∃ fuel out, readBytesFromFD fuel results rest length = some out := by
  induction i generalizing results rest length with
  | zero =>
    by_cases hlength : 0 < length
    · exact ⟨1, _, readBytesFromFD_error hlength hi⟩
    · exact ⟨1, _, readBytesFromFD_nonpos (Int.not_lt.mp hlength)⟩
  | succ i ih =>
    by_cases hlength : 0 < length
    · cases hfirst : results 0 with
      | error => exact ⟨1, _, readBytesFromFD_error hlength hfirst⟩
      | upTo most =>
        obtain ⟨fuel, out, hout⟩ := ih (fun i => results (i + 1))
          (rest.drop (rest.take (min (most + 1) length.toNat)).length)
          (length - (rest.take (min (most + 1) length.toNat)).length) hi
        refine ⟨fuel + 1, Option.isSome_iff_exists.mp ?_⟩
        rw [readBytesFromFD_upTo hlength hfirst, hout]
        rfl
    · exact ⟨1, _, readBytesFromFD_nonpos (Int.not_lt.mp hlength)⟩

/-- The loop goes on for ever when the file ends too early and no call fails. -/
theorem exists_iff : (∃ fuel out, readBytesFromFD fuel results rest length = some out) ↔
    length ≤ rest.length ∨ ∃ i, results i = .error := by
  constructor
  · rintro ⟨fuel, ⟨isSuccessful, bytes⟩, hout⟩
    have hsound := readBytesFromFD_sound hout
    cases isSuccessful with
    | true => exact Or.inl hsound.1
    | false => exact Or.inr hsound.error
  · rintro (hlong | ⟨i, hi⟩)
    · exact exists_of_length_le results rest length hlong
    · exact exists_of_error results rest length hi

theorem readCorrectly_iff : ReadCorrectly results rest length ↔
    length ≤ rest.length ∨ ∃ i, results i = .error := by
  rw [← exists_iff]
  constructor
  · rintro ⟨fuel, isSuccessful, bytes, hout, _⟩
    exact ⟨fuel, _, hout⟩
  · rintro ⟨fuel, ⟨isSuccessful, bytes⟩, hout⟩
    have hsound := readBytesFromFD_sound hout
    refine ⟨fuel, isSuccessful, bytes, hout, ?_⟩
    cases isSuccessful with
    | true =>
      obtain ⟨hlong, hfails, hbytes⟩ := hsound
      exact ⟨⟨fun _ => ⟨hlong, hfails⟩, fun _ => rfl⟩, fun _ => hbytes⟩
    | false => exact ⟨⟨nofun, fun hright => absurd hsound hright.2⟩, nofun⟩

/-! ## Whole files -/

/-- What `sentrycrashfu_readEntireFile` finds: whether the file opens, its size when the
descriptor is asked for it, whether there is memory, whether the position can be moved, and what
the file has in it when it is read. -/
structure FileCalls where
  opens : Bool
  st_size : Option Nat
  seeks : Bool
  allocates : Bool
  file : Bytes
  results : Nat → CallResult

/-- `(int)st.st_size`. -/
def intOf (size : Nat) : Int := ((size : Int) + 2 ^ 31) % 2 ^ 32 - 2 ^ 31

inductive Outcome where
  | failure
  | success (data : Bytes) (length : Int)
  | writeOutside
deriving DecidableEq

/-- The memory is filled from the position of the descriptor, and a zero is written behind. -/
def fillMemory (fuel : Nat) (calls : FileCalls) (rest : Bytes) (bytesToRead : Int) :
    Option Outcome :=
  if calls.allocates then
    (readBytesFromFD fuel calls.results rest bytesToRead).map fun (isSuccessful, mem) =>
      if isSuccessful then
        if bytesToRead < 0 then .writeOutside else .success (mem ++ [0]) bytesToRead
      else .failure
  else some .failure

/-- `sentrycrashfu_readEntireFile`. -/
def readEntireFile (fuel : Nat) (calls : FileCalls) (maxLength : Int32) : Option Outcome :=
  let bytesToRead := maxLength.toInt
  if calls.opens then
    match calls.st_size with
    | none => some .failure
    | some size =>
      if bytesToRead = 0 ∨ bytesToRead ≥ intOf size then
        fillMemory fuel calls calls.file (intOf size)
      else if bytesToRead > 0 then
        if calls.seeks ∧ bytesToRead.toNat ≤ calls.file.length then
          fillMemory fuel calls (calls.file.drop (calls.file.length - bytesToRead.toNat))
            bytesToRead
        else some .failure
      else fillMemory fuel calls calls.file bytesToRead
  else some .failure

/-- The whole file, or as many of its last bytes as are wanted, if it has that many. -/
def requested (file : Bytes) (size : Nat) (maxLength : Int32) : Option Bytes :=
  if maxLength.toInt = 0 ∨ size ≤ maxLength.toInt then
    if size ≤ file.length then some (file.take size) else none
  else if maxLength.toInt.toNat ≤ file.length then
    some (file.drop (file.length - maxLength.toInt.toNat))
  else none

/-- One of the calls is refused. -/
def FileCalls.Refused (calls : FileCalls) : Prop :=
  calls.opens = false ∨ calls.st_size = none ∨ calls.seeks = false ∨ calls.allocates = false ∨
    ∃ i, calls.results i = .error

/-- Success comes with the bytes that are requested, and failure when the file is shorter or a
call is refused. -/
def FileCalls.Right (calls : FileCalls) (maxLength : Int32) : Outcome → Prop
  | .failure => calls.Refused ∨ ∃ size ∈ calls.st_size, requested calls.file size maxLength = none
  | .success data length => ∃ size ∈ calls.st_size, ∃ bytes,
    requested calls.file size maxLength = some bytes ∧ data = bytes ++ [0] ∧
      length = bytes.length
  | .writeOutside => False

def FileCalls.ReadRight (calls : FileCalls) (maxLength : Int32) : Prop :=
  ∃ fuel outcome, readEntireFile fuel calls maxLength = some outcome ∧
    calls.Right maxLength outcome

/-- When the size fits into an int, the file still has that many bytes; when it does not, a read
fails, or as many bytes are wanted as it has left over and the file ends as it begins. -/
def WholeRight (calls : FileCalls) (size : Nat) (maxLength : Int32) : Prop :=
  (size < 2 ^ 31 ∧ size ≤ calls.file.length) ∨
    (0 ≤ intOf size ∧ ReadFails calls.results calls.file (intOf size)) ∨
    (0 < maxLength.toInt ∧ intOf size = maxLength.toInt ∧
      maxLength.toInt ≤ calls.file.length ∧
      calls.file.take maxLength.toInt.toNat =
        calls.file.drop (calls.file.length - maxLength.toInt.toNat))

/-- The last bytes are wanted, and not more than an int can count. Or the whole file is, and it
can be read. -/
def FileCalls.Readable (calls : FileCalls) (maxLength : Int32) : Prop :=
  calls.opens = true → calls.allocates = true → ∀ size ∈ calls.st_size,
    if maxLength.toInt = 0 ∨ maxLength.toInt ≥ intOf size then WholeRight calls size maxLength
    else 0 < maxLength.toInt

variable {calls : FileCalls} {size : Nat} {maxLength : Int32}

theorem fillMemory_refused (h : calls.allocates = false) (fuel : Nat) :
    fillMemory fuel calls rest length = some .failure := by
  rw [fillMemory, h]
  rfl

/-- What filling the memory can end with. -/
theorem fillMemory_iff (h : calls.allocates = true) (holds : Outcome → Prop) :
    (∃ fuel outcome, fillMemory fuel calls rest length = some outcome ∧ holds outcome) ↔
      (length < 0 ∧ holds .writeOutside) ∨
      (ReadFails calls.results rest length ∧ holds .failure) ∨
      (0 ≤ length ∧ length ≤ rest.length ∧ ¬ReadFails calls.results rest length ∧
        holds (.success (rest.take length.toNat ++ [0]) length)) := by
  simp only [fillMemory, h, if_true]
  constructor
  · rintro ⟨fuel, outcome, hrun, hholds⟩
    obtain ⟨⟨isSuccessful, mem⟩, hread, rfl⟩ := Option.map_eq_some_iff.mp hrun
    have hsound := readBytesFromFD_sound hread
    cases isSuccessful with
    | false => exact Or.inr (Or.inl ⟨hsound, hholds⟩)
    | true =>
      obtain ⟨hlong, hfails, rfl⟩ := hsound
      by_cases hneg : length < 0
      · rw [if_pos rfl, if_pos hneg] at hholds
        exact Or.inl ⟨hneg, hholds⟩
      · rw [if_pos rfl, if_neg hneg] at hholds
        exact Or.inr (Or.inr ⟨Int.not_lt.mp hneg, hlong, hfails, hholds⟩)
  · intro hcases
    have hends : length ≤ rest.length ∨ ∃ i, calls.results i = .error := by
      rcases hcases with ⟨hneg, _⟩ | ⟨⟨i, hi, _⟩, _⟩ | ⟨_, hlong, _⟩
      · exact Or.inl (by omega)
      · exact Or.inr ⟨i, hi⟩
      · exact Or.inl hlong
    obtain ⟨fuel, ⟨isSuccessful, mem⟩, hread⟩ := exists_iff.mpr hends
    have hsound := readBytesFromFD_sound hread
    refine ⟨fuel, _, by rw [hread, Option.map_some], ?_⟩
    cases isSuccessful with
    | false =>
      rcases hcases with ⟨hneg, _⟩ | ⟨_, hholds⟩ | ⟨_, _, hfails, _⟩
      · exact absurd hsound (not_readFails_of_nonpos (by omega))
      · exact hholds
      · exact absurd hsound hfails
    | true =>
      obtain ⟨hlong, hfails, rfl⟩ := hsound
      rcases hcases with ⟨hneg, hholds⟩ | ⟨hno, _⟩ | ⟨hpos, _, _, hholds⟩
      · rw [if_pos rfl, if_pos hneg]
        exact hholds
      · exact absurd hno hfails
      · rw [if_pos rfl, if_neg (Int.not_lt.mpr hpos)]
        exact hholds

theorem intOf_le (size : Nat) : intOf size ≤ size ∧ intOf size < 2 ^ 31 := by
  unfold intOf
  omega

theorem intOf_of_lt (h : size < 2 ^ 31) : intOf size = size := by
  unfold intOf
  omega

/-- The first bytes of the file, as many as the size says as an int, are the ones that are
requested. -/
theorem requested_eq_take_iff (hwhole : maxLength.toInt = 0 ∨ maxLength.toInt ≥ intOf size)
    {file : Bytes} (hnonneg : 0 ≤ intOf size) (hlong : intOf size ≤ file.length) :
    requested file size maxLength = some (file.take (intOf size).toNat) ↔
      (size < 2 ^ 31 ∧ size ≤ file.length) ∨
        (0 < maxLength.toInt ∧ intOf size = maxLength.toInt ∧ maxLength.toInt ≤ file.length ∧
          file.take maxLength.toInt.toNat = file.drop (file.length - maxLength.toInt.toNat)) := by
  have hle := intOf_le size
  have hmax := maxLength.toInt_lt
  unfold requested
  by_cases hfits : size < 2 ^ 31
  · have hsize := intOf_of_lt hfits
    rw [hsize] at hwhole hlong ⊢
    rw [if_pos hwhole, if_pos (by omega)]
    rw [Int.toNat_natCast]
    exact ⟨fun _ => Or.inl ⟨hfits, by omega⟩, fun _ => rfl⟩
  · by_cases hzero : maxLength.toInt = 0
    · rw [if_pos (Or.inl hzero)]
      constructor
      · intro heq
        by_cases hsome : size ≤ file.length
        · rw [if_pos hsome] at heq
          have hlengths := congrArg List.length (Option.some.inj heq)
          rw [List.length_take, List.length_take] at hlengths
          omega
        · rw [if_neg hsome] at heq
          cases heq
      · rintro (⟨hlt, _⟩ | ⟨hpos, _⟩) <;> omega
    · rw [if_neg (by omega)]
      constructor
      · intro heq
        by_cases hsome : maxLength.toInt.toNat ≤ file.length
        · rw [if_pos hsome] at heq
          have hbytes := Option.some.inj heq
          have hlengths := congrArg List.length hbytes
          rw [List.length_take, List.length_drop] at hlengths
          have hcount : intOf size = maxLength.toInt := by omega
          rw [hcount] at hbytes
          exact Or.inr ⟨by omega, hcount, by omega, hbytes.symm⟩
        · rw [if_neg hsome] at heq
          cases heq
      · rintro (⟨hlt, _⟩ | ⟨_, hcount, hsome, hbytes⟩)
        · omega
        · rw [if_pos (by omega), hcount, hbytes]

theorem readEntireFile_some (hopens : calls.opens = true) (hsize : calls.st_size = some size)
    (fuel : Nat) : readEntireFile fuel calls maxLength =
      if maxLength.toInt = 0 ∨ maxLength.toInt ≥ intOf size then
        fillMemory fuel calls calls.file (intOf size)
      else if maxLength.toInt > 0 then
        if calls.seeks ∧ maxLength.toInt.toNat ≤ calls.file.length then
          fillMemory fuel calls (calls.file.drop (calls.file.length - maxLength.toInt.toNat))
            maxLength.toInt
        else some .failure
      else fillMemory fuel calls calls.file maxLength.toInt := by
  simp only [readEntireFile, hopens, hsize, if_true]

theorem right_failure_of_error {i : Nat} (hi : calls.results i = .error) :
    calls.Right maxLength .failure :=
  Or.inl (Or.inr (Or.inr (Or.inr (Or.inr ⟨i, hi⟩))))

theorem right_success_iff {bytes : Bytes} {count : Int} (hsize : calls.st_size = some size)
    (hcount : count = bytes.length) : calls.Right maxLength (.success (bytes ++ [0]) count) ↔
      requested calls.file size maxLength = some bytes := by
  constructor
  · rintro ⟨found, hfound, wanted, hwanted, hdata, _⟩
    rw [hsize] at hfound
    cases hfound
    rw [hwanted, List.append_cancel_right hdata]
  · exact fun h => ⟨size, hsize, bytes, h, rfl, hcount⟩

theorem wholeRight_iff (hallocates : calls.allocates = true) (hsize : calls.st_size = some size)
    (hwhole : maxLength.toInt = 0 ∨ maxLength.toInt ≥ intOf size) :
    (∃ fuel outcome, fillMemory fuel calls calls.file (intOf size) = some outcome ∧
      calls.Right maxLength outcome) ↔ WholeRight calls size maxLength := by
  have hle := intOf_le size
  have hmax := maxLength.toInt_lt
  rw [fillMemory_iff hallocates]
  constructor
  · rintro (⟨_, hright⟩ | ⟨hfails, _⟩ | ⟨hpos, hlong, _, hright⟩)
    · exact hright.elim
    · refine Or.inr (Or.inl ⟨?_, hfails⟩)
      obtain ⟨i, _, hlt⟩ := hfails
      omega
    · rw [right_success_iff hsize (by rw [List.length_take]; omega),
        requested_eq_take_iff hwhole hpos hlong] at hright
      exact hright.elim Or.inl fun hsame => Or.inr (Or.inr hsame)
  · intro hright
    by_cases hfails : ReadFails calls.results calls.file (intOf size)
    · obtain ⟨i, hi⟩ := hfails.error
      exact Or.inr (Or.inl ⟨hfails, right_failure_of_error hi⟩)
    · have hbytes : (size < 2 ^ 31 ∧ size ≤ calls.file.length) ∨
          (0 < maxLength.toInt ∧ intOf size = maxLength.toInt ∧
            maxLength.toInt ≤ calls.file.length ∧
            calls.file.take maxLength.toInt.toNat =
              calls.file.drop (calls.file.length - maxLength.toInt.toNat)) :=
        hright.imp_right fun hrest => hrest.resolve_left fun hno => hfails hno.2
      have hbounds : 0 ≤ intOf size ∧ intOf size ≤ calls.file.length := by
        rcases hbytes with ⟨hfits, hlong⟩ | ⟨hpos, hcount, hlong, _⟩
        · rw [intOf_of_lt hfits]
          omega
        · omega
      refine Or.inr (Or.inr ⟨hbounds.1, hbounds.2, hfails, ?_⟩)
      rw [right_success_iff hsize (by rw [List.length_take]; omega),
        requested_eq_take_iff hwhole hbounds.1 hbounds.2]
      exact hbytes

/-- The last bytes of the file are read when it has that many. -/
theorem tail_right (hallocates : calls.allocates = true) (hsize : calls.st_size = some size)
    (hwhole : ¬(maxLength.toInt = 0 ∨ maxLength.toInt ≥ intOf size))
    (hpos : 0 < maxLength.toInt) (hlong : maxLength.toInt.toNat ≤ calls.file.length) :
    ∃ fuel outcome, fillMemory fuel calls
      (calls.file.drop (calls.file.length - maxLength.toInt.toNat)) maxLength.toInt = some outcome ∧
        calls.Right maxLength outcome := by
  have hle := intOf_le size
  have hlength : (calls.file.drop (calls.file.length - maxLength.toInt.toNat)).length =
      maxLength.toInt.toNat := by
    rw [List.length_drop]
    omega
  rw [fillMemory_iff hallocates]
  by_cases hfails : ReadFails calls.results
      (calls.file.drop (calls.file.length - maxLength.toInt.toNat)) maxLength.toInt
  · obtain ⟨i, hi⟩ := hfails.error
    exact Or.inr (Or.inl ⟨hfails, right_failure_of_error hi⟩)
  · refine Or.inr (Or.inr ⟨by omega, by omega, hfails, ?_⟩)
    rw [List.take_of_length_le (by omega), right_success_iff hsize (by omega)]
    unfold requested
    rw [if_neg (by omega), if_pos hlong]

theorem fillMemory_not_right (hallocates : calls.allocates = true) (hneg : length < 0) :
    ¬∃ fuel outcome, fillMemory fuel calls rest length = some outcome ∧
      calls.Right maxLength outcome := by
  rw [fillMemory_iff hallocates]
  rintro (⟨_, hright⟩ | ⟨hfails, _⟩ | ⟨hpos, _⟩)
  · exact hright
  · exact not_readFails_of_nonpos (by omega) hfails
  · omega

/-- A file that opens, with memory for it. -/
theorem readRight_some_iff (hopens : calls.opens = true) (hallocates : calls.allocates = true)
    (hsize : calls.st_size = some size) : calls.ReadRight maxLength ↔
      if maxLength.toInt = 0 ∨ maxLength.toInt ≥ intOf size then WholeRight calls size maxLength
      else 0 < maxLength.toInt := by
  simp only [FileCalls.ReadRight, readEntireFile_some hopens hsize]
  by_cases hwhole : maxLength.toInt = 0 ∨ maxLength.toInt ≥ intOf size
  · simp only [if_pos hwhole]
    exact wholeRight_iff hallocates hsize hwhole
  · simp only [if_neg hwhole]
    by_cases hpos : maxLength.toInt > 0
    · simp only [gt_iff_lt.mp hpos, if_true, iff_true]
      by_cases hseeks : calls.seeks ∧ maxLength.toInt.toNat ≤ calls.file.length
      · simp only [if_pos hseeks]
        exact tail_right hallocates hsize hwhole hpos hseeks.2
      · simp only [if_neg hseeks]
        refine ⟨0, .failure, rfl, ?_⟩
        by_cases hseek : calls.seeks = true
        · refine Or.inr ⟨size, hsize, ?_⟩
          have hle := intOf_le size
          unfold requested
          rw [if_neg (by omega), if_neg fun hlong => hseeks ⟨hseek, hlong⟩]
        · exact Or.inl (Or.inr (Or.inr (Or.inl (Bool.not_eq_true _ ▸ hseek))))
    · simp only [gt_iff_lt.not.mp hpos, if_false, iff_false]
      exact fillMemory_not_right hallocates (by omega)

theorem readRight_iff (calls : FileCalls) (maxLength : Int32) :
    calls.ReadRight maxLength ↔ calls.Readable maxLength := by
  have refused : ∀ fuel, readEntireFile fuel calls maxLength = some .failure → calls.Refused →
      calls.ReadRight maxLength :=
    fun fuel hrun hrefused => ⟨fuel, .failure, hrun, Or.inl hrefused⟩
  unfold FileCalls.Readable
  cases hopens : calls.opens with
  | false =>
    refine ⟨nofun, fun _ => refused 0 ?_ (Or.inl hopens)⟩
    rw [readEntireFile, hopens]
    rfl
  | true =>
    cases hsize : calls.st_size with
    | none =>
      refine ⟨fun _ _ _ => nofun, fun _ => refused 0 ?_ (Or.inr (Or.inl hsize))⟩
      simp only [readEntireFile, hopens, hsize, if_true]
    | some size =>
      cases hallocates : calls.allocates with
      | false =>
        refine ⟨nofun, fun _ => refused 0 ?_
          (Or.inr (Or.inr (Or.inr (Or.inl hallocates))))⟩
        simp [readEntireFile_some hopens hsize, fillMemory_refused hallocates]
      | true =>
        rw [readRight_some_iff hopens hallocates hsize]
        simp

/-- Bytes are read correctly exactly when the file has as many as are asked for or a call fails,
and a whole file is exactly when it is `Readable`. -/
theorem reads_correctly_iff (results : Nat → CallResult) (rest : Bytes) (length : Int)
    (calls : FileCalls) (maxLength : Int32) :
    (ReadCorrectly results rest length ↔
      length ≤ rest.length ∨ ∃ i, results i = .error) ∧
      (calls.ReadRight maxLength ↔ calls.Readable maxLength) :=
  ⟨readCorrectly_iff, readRight_iff calls maxLength⟩

/-- A file that was cut off between the look at its size and the first read. -/
def exampleCut : FileCalls where
  opens := true
  st_size := some 4
  seeks := true
  allocates := true
  file := [49, 50]
  results := fun _ => .upTo 3

theorem exampleCut_not_read :
    (∀ fuel, readBytesFromFD fuel exampleCut.results exampleCut.file 4 = none) ∧
      ¬ReadCorrectly exampleCut.results exampleCut.file 4 ∧ ¬exampleCut.ReadRight 0 := by
  have hnever : ¬((4 : Int) ≤ exampleCut.file.length ∨ ∃ i, exampleCut.results i = .error) := by
    simp [exampleCut]
  refine ⟨fun fuel => ?_, readCorrectly_iff.not.mpr hnever, ?_⟩
  · by_contra hsome
    obtain ⟨out, hout⟩ := Option.ne_none_iff_exists'.mp hsome
    exact hnever (exists_iff.mp ⟨fuel, out, hout⟩)
  · rw [readRight_some_iff rfl rfl rfl, if_pos (Or.inl (by decide))]
    rintro (⟨_, hlong⟩ | ⟨_, hfails⟩ | ⟨hpos, _⟩)
    · exact absurd hlong (by decide)
    · obtain ⟨i, hi⟩ := hfails.error
      cases hi
    · exact absurd hpos (by decide)

/-! ## Writes -/

/-- `sentrycrashfu_writeBytesToFD`, with the bytes that reach the file. Calls of `write` that
nothing is said about write everything. -/
def writeBytesToFD : (results : List CallResult) → (bytes : Bytes) → Bool × Bytes
  | _, [] => (true, [])
  | [], bytes => (true, bytes)
  | .error :: _, _ => (false, [])
  | .upTo most :: results, bytes =>
    let later := writeBytesToFD results (bytes.drop (most + 1))
    (later.1, bytes.take (most + 1) ++ later.2)

/-- Some call fails before the ones before it have written everything. -/
def WriteFails (results : List CallResult) (bytes : Bytes) : Prop :=
  ∃ i, results[i]? = some .error ∧
    ((results.take i).map CallResult.amount).sum < bytes.length

theorem writeBytesToFD_nil (results : List CallResult) :
    writeBytesToFD results [] = (true, []) := by
  cases results <;> rfl

theorem writeFails_upTo {most : Nat} {results : List CallResult} {bytes : Bytes} :
    WriteFails (.upTo most :: results) bytes ↔ WriteFails results (bytes.drop (most + 1)) := by
  constructor
  · rintro ⟨i, hi, hlt⟩
    cases i with
    | zero => cases hi
    | succ i =>
      refine ⟨i, hi, ?_⟩
      rw [List.take_succ_cons, List.map_cons, List.sum_cons, CallResult.amount] at hlt
      rw [List.length_drop]
      omega
  · rintro ⟨i, hi, hlt⟩
    refine ⟨i + 1, hi, ?_⟩
    rw [List.length_drop] at hlt
    rw [List.take_succ_cons, List.map_cons, List.sum_cons, CallResult.amount]
    omega

/-- Without a failure everything reaches the file. -/
theorem writeBytesToFD_spec (results : List CallResult) (bytes : Bytes) :
    ((writeBytesToFD results bytes).1 = true ↔ ¬WriteFails results bytes) ∧
      ((writeBytesToFD results bytes).1 = true → (writeBytesToFD results bytes).2 = bytes) := by
  induction results generalizing bytes with
  | nil =>
    have hnever : ¬WriteFails [] bytes := by
      rintro ⟨i, hi, _⟩
      cases hi
    cases bytes with
    | nil => exact ⟨⟨fun _ => hnever, fun _ => rfl⟩, fun _ => rfl⟩
    | cons byte bytes => exact ⟨⟨fun _ => hnever, fun _ => rfl⟩, fun _ => rfl⟩
  | cons result results ih =>
    cases bytes with
    | nil =>
      rw [writeBytesToFD_nil]
      refine ⟨⟨fun _ => ?_, fun _ => rfl⟩, fun _ => rfl⟩
      rintro ⟨i, _, hlt⟩
      exact Nat.not_lt_zero _ hlt
    | cons byte bytes =>
      cases result with
      | error => exact ⟨⟨nofun, fun hno => absurd ⟨0, rfl, Nat.succ_pos _⟩ hno⟩, nofun⟩
      | upTo most =>
        have hlater := ih ((byte :: bytes).drop (most + 1))
        rw [writeFails_upTo]
        refine ⟨hlater.1, fun hall => ?_⟩
        change _ ++ (writeBytesToFD results ((byte :: bytes).drop (most + 1))).2 = _
        rw [hlater.2 hall, List.take_append_drop]

end SentryCocoa.CrashFileUtils
