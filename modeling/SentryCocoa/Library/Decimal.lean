import Mathlib.Algebra.Ring.Nat
import Mathlib.Data.Char
import Mathlib.Data.List.Lex
import Mathlib.Order.Lattice

/-! Decimal numerals with leading zeros. Numerals of one width are in the order of their
numbers, and so are texts that start with them. -/
namespace SentryCocoa.Library.Decimal

/-- At least as wide as the width. -/
def padded (width n : Nat) : List Char := (Nat.toDigits 10 n).leftpad width '0'

theorem padded_one {n : Nat} (h : n < 10) : padded 1 n = [n.digitChar] := by
  simp [padded, List.leftpad, Nat.toDigits_of_lt_base h]

theorem padded_succ {width n : Nat} (hwidth : 0 < width) :
    padded (width + 1) n = padded width (n / 10) ++ [(n % 10).digitChar] := by
  unfold padded List.leftpad
  by_cases hn : n < 10
  · have hzero : n / 10 = 0 := Nat.div_eq_of_lt hn
    obtain ⟨rest, rfl⟩ := Nat.exists_eq_succ_of_ne_zero (Nat.ne_of_gt hwidth)
    rw [hzero, Nat.mod_eq_of_lt hn, Nat.toDigits_of_lt_base hn, Nat.toDigits_zero]
    simp [List.replicate_succ']
  · rw [Nat.toDigits_of_base_le (by decide) (by omega)]
    simp

theorem padded_length {width n : Nat} (hwidth : 0 < width) (h : n < 10 ^ width) :
    (padded width n).length = width := by
  have hlength : (Nat.toDigits 10 n).length ≤ width :=
    (Nat.length_toDigits_le_iff (by decide) hwidth).mpr h
  simp [padded, List.leftpad]
  omega

/-- Numerals that have the width already. -/
theorem toDigits_eq_padded {width n : Nat} (h : 10 ^ width ≤ n) :
    Nat.toDigits 10 n = padded (width + 1) n := by
  have hlength : width + 1 ≤ (Nat.toDigits 10 n).length := by
    by_contra hshort
    cases width with
    | zero =>
      have hpos : 0 < (Nat.toDigits 10 n).length := Nat.length_toDigits_pos
      omega
    | succ width =>
      have hlt := (Nat.length_toDigits_le_iff (b := 10) (n := n) (by decide)
        (Nat.succ_pos width)).mp (by omega)
      omega
  simp [padded, List.leftpad, Nat.sub_eq_zero_of_le hlength]

theorem append_lt_append {α : Type*} [LinearOrder α] {first first' : List α}
    (hlength : first.length = first'.length) (h : first < first') (rest rest' : List α) :
    first ++ rest < first' ++ rest' := by
  induction first generalizing first' with
  | nil =>
    rw [List.length_nil, eq_comm, List.length_eq_zero_iff] at hlength
    rw [hlength] at h
    cases h
  | cons a first ih =>
    cases first' with
    | nil => cases hlength
    | cons a' first' =>
      rw [List.length_cons, List.length_cons, Nat.add_right_cancel_iff] at hlength
      rw [List.cons_append, List.cons_append]
      rcases List.cons_lt_cons_iff.mp h with hless | ⟨rfl, hless⟩
      · exact List.cons_lt_cons_iff.mpr (Or.inl hless)
      · exact List.cons_lt_cons_iff.mpr (Or.inr ⟨rfl, ih hlength hless⟩)

theorem digitChar_lt : ∀ n < 10, ∀ m < 10, n < m → n.digitChar < m.digitChar := by decide

theorem padded_lt_padded {width n m : Nat} (hwidth : 0 < width) (hlt : n < m)
    (hm : m < 10 ^ width) : padded width n < padded width m := by
  induction width, hwidth using Nat.le_induction generalizing n m with
  | base =>
    rw [padded_one (by omega), padded_one (by omega)]
    exact List.cons_lt_cons_iff.mpr (Or.inl (digitChar_lt n (by omega) m (by omega) hlt))
  | succ width hwidth ih =>
    have hdiv : m / 10 < 10 ^ width := by
      rw [Nat.pow_succ] at hm
      omega
    rw [padded_succ hwidth, padded_succ hwidth]
    by_cases hless : n / 10 < m / 10
    · apply append_lt_append
      · rw [padded_length hwidth (by omega), padded_length hwidth hdiv]
      · exact ih hless hdiv
    · have hsame : n / 10 = m / 10 := by omega
      rw [hsame]
      apply List.append_left_lt
      apply List.cons_lt_cons_iff.mpr
      exact Or.inl (digitChar_lt _ (by omega) _ (by omega) (by omega))

end SentryCocoa.Library.Decimal
