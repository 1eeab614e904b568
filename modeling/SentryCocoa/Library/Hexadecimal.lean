import Mathlib.Algebra.Ring.Nat
import Mathlib.Data.List.Basic
import Mathlib.Data.List.TakeWhile

/-! Hexadecimal numerals as bytes: of a fixed width when they are printed, and as long as they
go when they are read. -/
namespace SentryCocoa.Library.Hexadecimal

def isxdigit (c : UInt8) : Bool :=
  (48 ≤ c && c ≤ 57) || (65 ≤ c && c ≤ 70) || (97 ≤ c && c ≤ 102)

def digitValue (c : UInt8) : Nat :=
  if c ≤ 57 then c.toNat - 48 else if c ≤ 70 then c.toNat - 55 else c.toNat - 87

def digit (n : Nat) : UInt8 := if n < 10 then (48 + n).toUInt8 else (87 + n).toUInt8

/-- The last digits of a number, leading zeros among them. -/
def padded : Nat → Nat → List UInt8
  | 0, _ => []
  | width + 1, n => padded width (n / 16) ++ [digit (n % 16)]

def value (digits : List UInt8) : Nat :=
  digits.foldl (fun accum c => accum * 16 + digitValue c) 0

theorem digit_spec : ∀ n < 16, isxdigit (digit n) = true ∧ digitValue (digit n) = n := by
  decide

theorem isxdigit_digit (n : Nat) : isxdigit (digit (n % 16)) = true :=
  (digit_spec _ (Nat.mod_lt _ (by decide))).1

theorem length_padded (width n : Nat) : (padded width n).length = width := by
  induction width generalizing n with
  | zero => rfl
  | succ width ih => rw [padded, List.length_append, ih, List.length_singleton]

theorem all_isxdigit_padded (width n : Nat) : (padded width n).all isxdigit = true := by
  induction width generalizing n with
  | zero => rfl
  | succ width ih =>
    rw [padded, List.all_append, ih, List.all_cons, isxdigit_digit]
    rfl

theorem value_padded (width n : Nat) : value (padded width n) = n % 16 ^ width := by
  induction width generalizing n with
  | zero => rw [Nat.pow_zero, Nat.mod_one]; rfl
  | succ width ih =>
    have hlast := (digit_spec (n % 16) (Nat.mod_lt _ (by decide))).2
    have hinit := ih (n / 16)
    unfold value at hinit ⊢
    rw [padded, List.foldl_append, hinit, List.foldl_cons, List.foldl_nil, hlast, Nat.pow_succ,
      Nat.mul_comm (16 ^ width) 16, Nat.mod_mul]
    omega

/-- The numeral is read to its end. -/
theorem takeWhile_padded (width n : Nat) {c : UInt8} (hc : isxdigit c = false)
    (rest : List UInt8) :
    (padded width n ++ c :: rest).takeWhile isxdigit = padded width n := by
  have hall : ∀ d ∈ padded width n, isxdigit d = true :=
    List.all_eq_true.mp (all_isxdigit_padded width n)
  have hend : ¬isxdigit c = true := Bool.eq_false_iff.mp hc
  rw [List.takeWhile_append_of_pos hall, List.takeWhile_cons_of_neg hend, List.append_nil]

end SentryCocoa.Library.Hexadecimal
