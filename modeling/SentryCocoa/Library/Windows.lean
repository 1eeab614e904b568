import Mathlib.Data.List.Basic
import Mathlib.Order.Defs.LinearOrder
import Mathlib.Order.Lattice

/-! The elements of a sorted list that lie in a window are those between the first one that is not
in front of it and the last one that is not behind it. -/
namespace SentryCocoa.Library.Windows

variable {α κ : Type*}

/-- The index of the last element with a property. -/
def lastIdx? (p : α → Bool) (l : List α) : Option ℕ :=
  (l.reverse.findIdx? p).map (l.length - 1 - ·)

theorem findIdx?_some {p : α → Bool} {l : List α} {i : ℕ} (h : l.findIdx? p = some i) :
    ∃ x, l[i]? = some x ∧ p x = true ∧ ∀ j y, j < i → l[j]? = some y → p y = false := by
  obtain ⟨hlt, hp, hbefore⟩ := List.findIdx?_eq_some_iff_getElem.mp h
  refine ⟨l[i], List.getElem?_eq_getElem hlt, hp, fun j y hj hy => ?_⟩
  obtain ⟨hlt', rfl⟩ := List.getElem?_eq_some_iff.mp hy
  exact Bool.eq_false_iff.mpr (hbefore j hj)

theorem lastIdx?_some {p : α → Bool} {l : List α} {i : ℕ} (h : lastIdx? p l = some i) :
    ∃ x, l[i]? = some x ∧ p x = true ∧ ∀ j y, i < j → l[j]? = some y → p y = false := by
  obtain ⟨k, hk, rfl⟩ := Option.map_eq_some_iff.mp h
  obtain ⟨x, hx, hp, hbefore⟩ := findIdx?_some hk
  have hlt := (List.getElem?_eq_some_iff.mp hx).1
  rw [List.length_reverse] at hlt
  rw [List.getElem?_reverse hlt] at hx
  refine ⟨x, hx, hp, fun j y hj hy => ?_⟩
  have hlt' := (List.getElem?_eq_some_iff.mp hy).1
  apply hbefore (l.length - 1 - j) y (by omega)
  rw [List.getElem?_reverse (by omega), show l.length - 1 - (l.length - 1 - j) = j by omega]
  exact hy

theorem lastIdx?_none {p : α → Bool} {l : List α} (h : lastIdx? p l = none) :
    ∀ x ∈ l, p x = false := by
  intro x hx
  have hnone := List.findIdx?_eq_none_iff.mp (Option.map_eq_none_iff.mp h)
  exact hnone x (List.mem_reverse.mpr hx)

/-- A property that holds exactly between two indices. -/
theorem filter_eq_slice {p : α → Bool} {l : List α} {i j : ℕ} (hij : i ≤ j)
    (h : ∀ k x, l[k]? = some x → (p x = true ↔ i ≤ k ∧ k < j)) :
    l.filter p = (l.drop i).take (j - i) := by
  induction l generalizing i j with
  | nil => simp
  | cons x rest ih =>
    have hfirst := h 0 x rfl
    cases j with
    | zero =>
      have hnone : p x = false := Bool.eq_false_iff.mpr fun hp => absurd (hfirst.mp hp) (by omega)
      rw [List.filter_cons, hnone, show i = 0 by omega]
      apply (ih (Nat.le_refl 0) fun k y hy => _).trans (by simp)
      intro k y hy
      rw [h (k + 1) y hy]
      omega
    | succ j =>
      cases i with
      | zero =>
        have hp : p x = true := hfirst.mpr ⟨Nat.le_refl 0, Nat.succ_pos j⟩
        rw [List.filter_cons_of_pos hp, ih (Nat.zero_le j) fun k y hy => by
          rw [h (k + 1) y hy]
          omega]
        rfl
      | succ i =>
        have hnone : ¬p x = true := fun hp => absurd (hfirst.mp hp) (by omega)
        rw [List.filter_cons_of_neg hnone, ih (Nat.le_of_succ_le_succ hij) fun k y hy => by
          rw [h (k + 1) y hy]
          omega]
        rw [Nat.add_sub_add_right, List.drop_succ_cons]

variable [LinearOrder κ] (key : α → κ)

/-- The two searches of a sorted list, one for each end of the window, meet. -/
theorem filter_window {l : List α} (hsorted : l.Pairwise fun x y => key x ≤ key y)
    {start stop : κ} (hle : start ≤ stop) {first last : ℕ}
    (hfirst : l.findIdx? (fun x => start ≤ key x) = some first)
    (hlast : lastIdx? (fun x => key x ≤ stop) l = some last) :
    first ≤ last + 1 ∧ last < l.length ∧
      l.filter (fun x => start ≤ key x ∧ key x ≤ stop) =
        (l.drop first).take (last + 1 - first) := by
  obtain ⟨x, hx, hxkey, hbefore⟩ := findIdx?_some hfirst
  obtain ⟨y, hy, hykey, hbehind⟩ := lastIdx?_some hlast
  have hlt := (List.getElem?_eq_some_iff.mp hy).1
  have hmono {i j : ℕ} {a b : α} (ha : l[i]? = some a) (hb : l[j]? = some b) (hij : i ≤ j) :
      key a ≤ key b := by
    obtain ⟨hi, rfl⟩ := List.getElem?_eq_some_iff.mp ha
    obtain ⟨hj, rfl⟩ := List.getElem?_eq_some_iff.mp hb
    rcases Nat.lt_or_eq_of_le hij with hless | rfl
    · exact List.pairwise_iff_getElem.mp hsorted i j hi hj hless
    · exact le_refl _
  have hmeet : first ≤ last + 1 := by
    by_contra hgap
    have hmid : last + 1 < l.length := by
      have := (List.getElem?_eq_some_iff.mp hx).1
      omega
    have hget := List.getElem?_eq_getElem hmid
    have hafter := of_decide_eq_false (hbehind (last + 1) _ (by omega) hget)
    have hfront := of_decide_eq_false (hbefore (last + 1) _ (by omega) hget)
    exact hfront (le_trans hle (le_of_lt (not_le.mp hafter)))
  refine ⟨hmeet, hlt, filter_eq_slice hmeet fun k z hz => ?_⟩
  rw [decide_eq_true_iff]
  constructor
  · rintro ⟨hstart, hstop⟩
    constructor
    · by_contra hk
      exact of_decide_eq_false (hbefore k z (by omega) hz) hstart
    · by_contra hk
      exact of_decide_eq_false (hbehind k z (by omega) hz) hstop
  · rintro ⟨hk, hk'⟩
    exact ⟨le_trans (of_decide_eq_true hxkey) (hmono hx hz hk),
      le_trans (hmono hz hy (Nat.le_of_lt_succ hk')) (of_decide_eq_true hykey)⟩

end SentryCocoa.Library.Windows
