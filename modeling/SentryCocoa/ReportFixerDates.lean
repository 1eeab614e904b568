import SentryCocoa.ReportFixer
import SentryCocoa.JSONFields

/-! The dates that the fixer writes. Within the years of four digits they are those of RFC 3339,
in UTC and without a fraction. -/
namespace SentryCocoa.ReportFixer
open JSONCodec Library.Calendar

/-! What a date is. -/

structure DateTime where
  date : Date
  hour : Nat
  minute : Nat
  second : Nat

/-- The last digits of the number, so many of them. -/
def lastDigits : Nat → Nat → Bytes
  | 0, _ => []
  | width + 1, n => lastDigits width (n / 10) ++ [digitByte (n % 10)]

namespace DateTime

structure Valid (dateTime : DateTime) : Prop where
  date : dateTime.date.Valid
  year : 0 ≤ dateTime.date.year ∧ dateTime.date.year ≤ 9999
  hour : dateTime.hour < 24
  minute : dateTime.minute < 60
  second : dateTime.second < 60

/-- The seconds since the first of January 1970. -/
def timestamp (dateTime : DateTime) : Int :=
  dateTime.date.dayNumber * 86400 + dateTime.hour * 3600 + dateTime.minute * 60 + dateTime.second

def text (dateTime : DateTime) : Bytes :=
  lastDigits 4 dateTime.date.year.toNat ++ ascii "-" ++ lastDigits 2 dateTime.date.month.toNat ++
    ascii "-" ++ lastDigits 2 dateTime.date.day.toNat ++ ascii "T" ++
    lastDigits 2 dateTime.hour ++ ascii ":" ++ lastDigits 2 dateTime.minute ++ ascii ":" ++
    lastDigits 2 dateTime.second ++ ascii "Z"

end DateTime

/-- The text is the date and the time of the timestamp. -/
def IsDateOf (text : Bytes) (timestamp : Int) : Prop :=
  ∃ dateTime : DateTime, dateTime.Valid ∧ dateTime.timestamp = timestamp ∧ dateTime.text = text

/-- The seconds of the years that have four digits. -/
def HasDate (timestamp : Int) : Prop :=
  (Date.mk 0 1 1).dayNumber * 86400 ≤ timestamp ∧
    timestamp < (Date.mk 10000 1 1).dayNumber * 86400

instance : DecidablePred HasDate := fun _ => inferInstanceAs (Decidable (_ ∧ _))

/-! The conversion. -/

theorem decimal_of_lt {n : Nat} (h : n < 10) : decimal n = [digitByte n] := by
  unfold decimal
  split
  · rename_i hzero
    subst hzero
    decide
  · rename_i hzero
    rw [Nat.digits_of_lt 10 n hzero h]
    rfl

theorem decimal_of_le {n : Nat} (h : 10 ≤ n) :
    decimal n = decimal (n / 10) ++ [digitByte (n % 10)] := by
  have hn : n ≠ 0 := by omega
  have hdiv : n / 10 ≠ 0 := by omega
  unfold decimal
  rw [if_neg hn, if_neg hdiv, Nat.digits_def' (by decide) (by omega), List.reverse_cons,
    List.map_append]
  rfl

theorem leftpad_decimal {width n : Nat} (hwidth : 0 < width) (h : n < 10 ^ width) :
    (decimal n).leftpad width '0'.toUInt8 = lastDigits width n := by
  induction width, hwidth using Nat.le_induction generalizing n with
  | base =>
    rw [decimal_of_lt (by omega), lastDigits, Nat.mod_eq_of_lt (by omega)]
    rfl
  | succ width hwidth ih =>
    rw [Nat.pow_succ] at h
    rw [lastDigits, ← ih (show n / 10 < 10 ^ width by omega)]
    unfold List.leftpad
    by_cases hn : n < 10
    · obtain ⟨more, rfl⟩ := Nat.exists_eq_succ_of_ne_zero (Nat.ne_of_gt hwidth)
      have hzero : n / 10 = 0 := by omega
      have hdecimal : decimal 0 = ['0'.toUInt8] := by decide
      rw [hzero, decimal_of_lt hn, Nat.mod_eq_of_lt hn, hdecimal]
      simp [List.replicate_succ']
    · rw [decimal_of_le (by omega)]
      simp

theorem paddedDecimal_eq {width n : Nat} (hwidth : 0 < width) (h : n < 10 ^ width) :
    paddedDecimal width n = lastDigits width n := by
  unfold paddedDecimal
  rw [if_neg (by omega), Int.natAbs_natCast, leftpad_decimal hwidth h]

theorem lastDigits_length (width n : Nat) : (lastDigits width n).length = width := by
  induction width generalizing n with
  | zero => rfl
  | succ width ih => rw [lastDigits, List.length_append, ih, List.length_singleton]

/-- The date and the time of the day. -/
def dateTimeOf (timestamp : Int) : DateTime where
  date := dateOfDay (timestamp / 86400)
  hour := (timestamp % 86400 / 3600).toNat
  minute := (timestamp % 86400 / 60 % 60).toNat
  second := (timestamp % 86400 % 60).toNat

theorem valid_dateTimeOf {timestamp : Int} (h : HasDate timestamp) :
    (dateTimeOf timestamp).Valid := by
  have hvalid := valid_dateOfDay (timestamp / 86400)
  have hnumber := dayNumber_dateOfDay (timestamp / 86400)
  have hfirstDay : (Date.mk 0 1 1).Valid := ⟨by decide, by decide⟩
  have hlastDay : (Date.mk 9999 12 31).Valid := ⟨by decide, by decide⟩
  obtain ⟨hfirst, hlast⟩ := h
  refine ⟨hvalid, ⟨?_, ?_⟩, ?_, ?_, ?_⟩
  · by_contra hyear
    have := dayNumber_lt_of_year_lt hvalid hfirstDay (not_le.mp hyear)
    omega
  · by_contra hyear
    have := dayNumber_lt_of_year_lt hlastDay hvalid (not_le.mp hyear)
    have hend : (Date.mk 10000 1 1).dayNumber = (Date.mk 9999 12 31).dayNumber + 1 := by decide
    omega
  · unfold dateTimeOf
    dsimp only
    omega
  · unfold dateTimeOf
    dsimp only
    omega
  · unfold dateTimeOf
    dsimp only
    omega

theorem timestamp_dateTimeOf (timestamp : Int) : (dateTimeOf timestamp).timestamp = timestamp := by
  unfold DateTime.timestamp dateTimeOf
  rw [dayNumber_dateOfDay]
  dsimp only
  omega

theorem paddedDecimal_toNat {width : Nat} {value : Int} (hwidth : 0 < width) (hvalue : 0 ≤ value)
    (h : value < 10 ^ width) : paddedDecimal width value = lastDigits width value.toNat := by
  obtain ⟨n, rfl⟩ := Int.eq_ofNat_of_zero_le hvalue
  rw [Int.toNat_natCast]
  exact paddedDecimal_eq hwidth (by exact_mod_cast h)

theorem daysInMonth_le (year month : Int) : daysInMonth year month ≤ 31 := by
  unfold daysInMonth
  split
  · split <;> decide
  · split <;> decide

theorem dateText_eq {timestamp : Int64} (h : HasDate timestamp.toInt) :
    ∃ tm, gmtimeR timestamp = some tm ∧ dateText tm = (dateTimeOf timestamp.toInt).text := by
  obtain ⟨⟨⟨hmonth, hmonth'⟩, hday, hday'⟩, ⟨hyear, hyear'⟩, -, -, -⟩ := valid_dateTimeOf h
  have hlast := hday'.trans (daysInMonth_le _ _)
  unfold gmtimeR
  unfold dateTimeOf at *
  dsimp only at *
  generalize dateOfDay (timestamp.toInt / 86400) = date at *
  rw [if_pos (by omega)]
  refine ⟨_, rfl, ?_⟩
  unfold dateText DateTime.text
  dsimp only
  rw [Int.sub_add_cancel, Int.sub_add_cancel,
    paddedDecimal_toNat (by decide) hyear (by omega),
    paddedDecimal_toNat (by decide) (by omega) (by omega),
    paddedDecimal_toNat (by decide) (by omega) (by omega),
    paddedDecimal_toNat (by decide) (by omega) (by omega),
    paddedDecimal_toNat (by decide) (by omega) (by omega),
    paddedDecimal_toNat (by decide) (by omega) (by omega)]

theorem utcStringFromTimestamp_isDateOf {timestamp : Int64} (h : HasDate timestamp.toInt) :
    IsDateOf (utcStringFromTimestamp timestamp) timestamp.toInt := by
  obtain ⟨tm, htm, htext⟩ := dateText_eq h
  have hlength : (dateTimeOf timestamp.toInt).text.length = 20 := by
    unfold DateTime.text
    simp [lastDigits_length, ascii]
  refine ⟨dateTimeOf timestamp.toInt, valid_dateTimeOf h, timestamp_dateTimeOf _, ?_⟩
  unfold utcStringFromTimestamp
  rw [htm, Option.getD_some, htext, List.take_of_length_le hlength.le]

/-! The strings. -/

/-- The byte is written as it is. -/
def Unescaped (c : UInt8) : Prop := escapeByte c = some [c]

instance : DecidablePred Unescaped := fun _ => inferInstanceAs (Decidable (_ = _))

theorem unescaped_digitByte : ∀ digit < 10, Unescaped (digitByte digit) := by decide +kernel

theorem unescaped_decimal (n : Nat) : ∀ c ∈ decimal n, Unescaped c := by
  intro c hc
  rw [decimal_eq] at hc
  obtain ⟨digit, hdigit, rfl⟩ := List.mem_map.mp hc
  exact unescaped_digitByte digit (decimalDigits_lt n digit hdigit)

theorem unescaped_paddedDecimal (width : Nat) (value : Int) :
    ∀ c ∈ paddedDecimal width value, Unescaped c := by
  have hpad (width : Nat) : ∀ c ∈ (decimal value.natAbs).leftpad width '0'.toUInt8,
      Unescaped c := by
    intro c hc
    unfold List.leftpad at hc
    rcases List.mem_append.mp hc with hzero | hdigit
    · rw [List.eq_of_mem_replicate hzero]
      decide
    · exact unescaped_decimal _ c hdigit
  intro c hc
  unfold paddedDecimal at hc
  split at hc
  · rcases List.mem_append.mp hc with hminus | hdigits
    · rw [List.mem_singleton.mp hminus]
      decide
    · exact hpad _ c hdigits
  · exact hpad _ c hc

theorem unescaped_dateText (tm : Tm) : ∀ c ∈ dateText tm, Unescaped c := by
  have hall : ∀ mark ∈ ["-", "T", ":", "Z"], (ascii mark).all fun c => Unescaped c := by decide
  have hmark (mark : String) (h : mark ∈ ["-", "T", ":", "Z"]) (c : UInt8) (hc : c ∈ ascii mark) :
      Unescaped c := of_decide_eq_true (List.all_eq_true.1 (hall mark h) c hc)
  intro c hc
  unfold dateText at hc
  simp only [List.mem_append] at hc
  rcases hc with ((((((((((hc | hc) | hc) | hc) | hc) | hc) | hc) | hc) | hc) | hc) | hc) | hc
  all_goals first
    | exact unescaped_paddedDecimal _ _ c hc
    | exact hmark _ (by decide) c hc

theorem unescaped_utcStringFromTimestamp (timestamp : Int64) :
    ∀ c ∈ utcStringFromTimestamp timestamp, Unescaped c :=
  fun c hc => unescaped_dateText _ c (List.mem_of_mem_take hc)

theorem escape_of_unescaped {string : Bytes} (h : ∀ c ∈ string, Unescaped c) :
    escape string = string := by
  induction string with
  | nil => rfl
  | cons c string ih =>
    rw [escape_cons (h c List.mem_cons_self), ih fun d hd => h d (List.mem_cons_of_mem _ hd)]
    rfl

/-- The string that is written in place of the timestamp. -/
def dateString (timestamp : Int64) : PlainString where
  bytes := utcStringFromTimestamp timestamp
  plain := by
    apply List.all_eq_true.mpr
    intro c hc
    rw [unescaped_utcStringFromTimestamp timestamp c hc]
    rfl

theorem dateString_bytes (timestamp : Int64) :
    (dateString timestamp).bytes = utcStringFromTimestamp timestamp := by
  unfold dateString
  rfl

theorem escape_dateString_length (timestamp : Int64) :
    (escape (dateString timestamp).bytes).length ≤ 20 := by
  rw [dateString_bytes, escape_of_unescaped (unescaped_utcStringFromTimestamp timestamp)]
  exact List.length_take_le _ _

end SentryCocoa.ReportFixer
