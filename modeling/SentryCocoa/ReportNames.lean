import SentryCocoa.JSONDecoder
import SentryCocoa.Library.Hexadecimal
import Mathlib.Data.List.DropRight

/-! The names of crash reports, which hold their ids, and how the ids are read back from the
names that a directory has. -/
namespace SentryCocoa.ReportStore
open SentryCocoa.JSONCodec SentryCocoa.Library.Hexadecimal

/-- The name of an app becomes part of a format, so it has no percent sign. -/
structure AppName where
  bytes : Bytes
  plain : '%'.toUInt8 ∉ bytes

variable (appName : AppName)

/-- What `%016llx` prints. -/
def printID (id : Int64) : Bytes := padded 16 id.toUInt64.toNat

/-- The name of the file at the path that `getCrashReportPathByID` makes. -/
def reportFilename (id : Int64) : Bytes :=
  appName.bytes ++ ascii "-report-" ++ printID id ++ ascii ".json"

/-- The name of the directory at the path that `getAttachmentsPath_forReportId` makes. -/
def attachmentsFilename (id : Int64) : Bytes :=
  appName.bytes ++ ascii "-report-" ++ printID id ++ ascii "-attachments"

/-! Scanning. -/

inductive Directive where
  | whitespace
  | character (c : UInt8)
  | hexadecimal

/-- White space in a format stands for as much of it as there is. -/
def directive (c : UInt8) : Directive := if isspace c then .whitespace else .character c

def scanFormat : List Directive :=
  appName.bytes.map directive ++ (ascii "-report-").map directive ++ [.hexadecimal] ++
    (ascii ".json").map directive

/-- A sign is taken, and `0x` before the digits. -/
def scanSign (input : Bytes) : Bool × Bytes :=
  match input with
  | c :: rest =>
    if c = '-'.toUInt8 then (true, rest) else if c = '+'.toUInt8 then (false, rest)
    else (false, input)
  | [] => (false, [])

def scanPrefix (input : Bytes) : Bytes :=
  match input with
  | c :: x :: d :: rest =>
    if c = '0'.toUInt8 ∧ (x = 'x'.toUInt8 ∨ x = 'X'.toUInt8) ∧ isxdigit d = true then d :: rest
    else input
  | _ => input

/-- A number that is too large becomes the largest. -/
def scanHexadecimal (input : Bytes) : Option Int64 :=
  let sign := scanSign (input.dropWhile isspace)
  let digits := (scanPrefix sign.2).takeWhile isxdigit
  if digits.isEmpty then none
  else
    let magnitude := UInt64.ofNat (min (value digits) (2 ^ 64 - 1))
    some (if sign.1 then -magnitude.toInt64 else magnitude.toInt64)

/-- What stands behind a number does not take it back. -/
def sscanf : List Directive → Bytes → Option Int64
  | [], _ => none
  | .whitespace :: format, input => sscanf format (input.dropWhile isspace)
  | .character c :: format, input =>
    match input with
    | [] => none
    | d :: rest => if c = d then sscanf format rest else none
  | .hexadecimal :: _, input => scanHexadecimal input

def getReportIDFromFilename (filename : Bytes) : Int64 :=
  (sscanf (scanFormat appName) filename).getD 0

/-! What is read from the names that the store gives. -/

theorem dropWhile_isspace {c : UInt8} (hc : isspace c = false) (rest : Bytes) :
    (c :: rest).dropWhile isspace = c :: rest :=
  List.dropWhile_cons_of_neg (Bool.eq_false_iff.mp hc)

/-- Text that the format has literally is matched by itself, and that white space before it is
skipped makes no difference. -/
theorem sscanf_literal (text : Bytes) (format : List Directive) {c : UInt8}
    (hc : isspace c = false) (rest : Bytes) :
    sscanf (text.map directive ++ format) (text ++ c :: rest) = sscanf format (c :: rest) ∧
      sscanf (text.map directive ++ format) ((text ++ c :: rest).dropWhile isspace) =
        sscanf format (c :: rest) := by
  induction text with
  | nil =>
    refine ⟨rfl, ?_⟩
    rw [List.nil_append, dropWhile_isspace hc]
    rfl
  | cons d text ih =>
    cases hd : isspace d with
    | true =>
      have hskip : (d :: text ++ c :: rest).dropWhile isspace =
          (text ++ c :: rest).dropWhile isspace := List.dropWhile_cons_of_pos hd
      have hagain : ((text ++ c :: rest).dropWhile isspace).dropWhile isspace =
          (text ++ c :: rest).dropWhile isspace := List.dropWhile_idempotent isspace _
      have hformat : (d :: text).map directive ++ format =
          .whitespace :: (text.map directive ++ format) := by
        rw [List.map_cons, directive, hd]
        rfl
      rw [hformat, sscanf, sscanf, hskip, hagain]
      exact ⟨ih.2, ih.2⟩
    | false =>
      have hskip : (d :: text ++ c :: rest).dropWhile isspace = d :: text ++ c :: rest :=
        dropWhile_isspace hd _
      have hmatch : sscanf ((d :: text).map directive ++ format) (d :: text ++ c :: rest) =
          sscanf (text.map directive ++ format) (text ++ c :: rest) := by
        rw [List.map_cons, directive, hd]
        exact if_pos rfl
      rw [hskip, hmatch]
      exact ⟨ih.1, ih.1⟩

theorem isspace_of_isxdigit {c : UInt8} (h : isxdigit c = true) :
    isspace c = false ∧ c ≠ '-'.toUInt8 ∧ c ≠ '+'.toUInt8 ∧ c ≠ 'x'.toUInt8 ∧ c ≠ 'X'.toUInt8 := by
  have hall : ∀ n < 256, isxdigit (UInt8.ofNat n) = true →
      isspace (UInt8.ofNat n) = false ∧ UInt8.ofNat n ≠ '-'.toUInt8 ∧
        UInt8.ofNat n ≠ '+'.toUInt8 ∧ UInt8.ofNat n ≠ 'x'.toUInt8 ∧
          UInt8.ofNat n ≠ 'X'.toUInt8 := by
    decide +kernel
  have hc := hall c.toNat c.toNat_lt
  rw [UInt8.ofNat_toNat] at hc
  exact hc h

theorem scanHexadecimal_printID (id : Int64) {c : UInt8} (hc : isxdigit c = false) (rest : Bytes) :
    scanHexadecimal (printID id ++ c :: rest) = some id := by
  have hlength : (printID id).length = 16 := length_padded 16 _
  have hdigits : ∀ d ∈ printID id, isxdigit d = true :=
    List.all_eq_true.mp (all_isxdigit_padded 16 _)
  have htake : (printID id ++ c :: rest).takeWhile isxdigit = printID id :=
    takeWhile_padded 16 _ hc rest
  have hvalue : value (printID id) = id.toUInt64.toNat := by
    have hlt := id.toUInt64.toNat_lt
    rw [printID, value_padded]
    exact Nat.mod_eq_of_lt (by omega)
  -- The numeral begins with two digits, so there is no sign and no prefix.
  obtain ⟨d, d', more, htext⟩ : ∃ d d' more, printID id = d :: d' :: more := by
    match htext : printID id with
    | [] => simp [htext] at hlength
    | [_] => simp [htext] at hlength
    | d :: d' :: more => exact ⟨d, d', more, rfl⟩
  obtain ⟨hspace, hminus, hplus, -⟩ := isspace_of_isxdigit (hdigits d (by simp [htext]))
  obtain ⟨-, -, -, hx, hX⟩ := isspace_of_isxdigit (hdigits d' (by simp [htext]))
  have hdrop : (printID id ++ c :: rest).dropWhile isspace = printID id ++ c :: rest := by
    rw [htext]
    exact dropWhile_isspace hspace _
  have hsign : scanSign (printID id ++ c :: rest) = (false, printID id ++ c :: rest) := by
    rw [htext]
    unfold scanSign
    simp only [List.cons_append]
    rw [if_neg hminus, if_neg hplus]
  have hunprefixed : scanPrefix (printID id ++ c :: rest) = printID id ++ c :: rest := by
    rw [htext]
    unfold scanPrefix
    split
    · rename_i heq
      simp only [List.cons_append, List.cons.injEq] at heq
      obtain ⟨-, rfl, -⟩ := heq
      rw [if_neg]
      rintro ⟨-, hunprefixed, -⟩
      rcases hunprefixed with hunprefixed | hunprefixed
      · exact hx hunprefixed
      · exact hX hunprefixed
    · rfl
  have hnonempty : (printID id).isEmpty = false := by
    rw [htext]
    rfl
  unfold scanHexadecimal
  rw [hdrop, hsign]
  dsimp only
  rw [hunprefixed, htake, hnonempty, hvalue]
  have hmin : min id.toUInt64.toNat (2 ^ 64 - 1) = id.toUInt64.toNat := by
    have hlt := id.toUInt64.toNat_lt
    omega
  rw [hmin, UInt64.ofNat_toNat]
  exact congrArg some (Int64.toInt64_toUInt64 id)

/-- The id is read from every name that starts like that of a report. -/
theorem getReportIDFromFilename_eq (id : Int64) {c : UInt8} (hc : isxdigit c = false)
    (rest : Bytes) :
    getReportIDFromFilename appName
      (appName.bytes ++ ascii "-report-" ++ printID id ++ c :: rest) = id := by
  have hlength : (printID id).length = 16 := length_padded 16 _
  obtain ⟨d, more, htext⟩ := List.exists_cons_of_ne_nil
    (List.ne_nil_of_length_pos (by omega : 0 < (printID id).length))
  have hdigit : isxdigit d = true :=
    List.all_eq_true.mp (all_isxdigit_padded 16 _) d (htext ▸ List.mem_cons_self)
  have hspace := (isspace_of_isxdigit hdigit).1
  have hformat : scanFormat appName = (appName.bytes ++ ascii "-report-").map directive ++
      .hexadecimal :: (ascii ".json").map directive := by
    simp [scanFormat]
  have hname : appName.bytes ++ ascii "-report-" ++ printID id ++ c :: rest =
      (appName.bytes ++ ascii "-report-") ++ d :: (more ++ c :: rest) := by
    rw [htext]
    simp
  have hscan : sscanf (.hexadecimal :: (ascii ".json").map directive)
      (d :: (more ++ c :: rest)) = some id := by
    have hnumber := scanHexadecimal_printID id hc rest
    rw [htext] at hnumber
    exact hnumber
  rw [getReportIDFromFilename, hformat, hname, (sscanf_literal _ _ hspace _).1, hscan]
  rfl

theorem getReportIDFromFilename_reportFilename (id : Int64) :
    getReportIDFromFilename appName (reportFilename appName id) = id :=
  getReportIDFromFilename_eq appName id (by decide : isxdigit '.'.toUInt8 = false) (ascii "json")

/-- The directory of attachments has the id of its report. -/
theorem getReportIDFromFilename_attachmentsFilename (id : Int64) :
    getReportIDFromFilename appName (attachmentsFilename appName id) = id :=
  getReportIDFromFilename_eq appName id (by decide : isxdigit '-'.toUInt8 = false)
    (ascii "attachments")

theorem reportFilename_injective : Function.Injective (reportFilename appName) := by
  intro id id' h
  have hid := getReportIDFromFilename_reportFilename appName id
  rw [h, getReportIDFromFilename_reportFilename] at hid
  exact hid.symm

end SentryCocoa.ReportStore
