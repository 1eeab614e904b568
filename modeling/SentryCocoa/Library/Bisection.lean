import Mathlib.Data.List.Basic

/-! The search in a list between two bounds that both belong to it. A comparison says on which
side of an element the target lies. -/
namespace SentryCocoa.Library.Bisection

variable {α : Type*} (compare : α → Ordering)

/-- The place of an element that the target lies in, or −1. A place outside of the list would
raise. -/
def bisect (l : List α) (left right : Int) : Int :=
  if left ≤ right then
    let mid := (left + right) / 2
    match (l[mid.toNat]?).map compare with
    | none => -1
    | some .eq => mid
    | some .lt => bisect l left (mid - 1)
    | some .gt => bisect l (mid + 1) right
  else -1
termination_by (right - left + 1).toNat

/-- The target lies before everything that follows an element it does not lie behind. -/
def Ordered (l : List α) : Prop := l.Pairwise fun a b => compare a ≠ .gt → compare b = .lt

variable {compare} {l : List α}

theorem Ordered.lt_of_lt (h : Ordered compare l) {i j : Nat} (hij : i < j) {a b : α}
    (ha : l[i]? = some a) (hb : l[j]? = some b) (hne : compare a ≠ .gt) : compare b = .lt := by
  obtain ⟨hi, rfl⟩ := List.getElem?_eq_some_iff.mp ha
  obtain ⟨hj, rfl⟩ := List.getElem?_eq_some_iff.mp hb
  exact List.pairwise_iff_getElem.mp h i j hi hj hij hne

/-- There is at most one element that the target lies in. -/
theorem Ordered.eq_unique (h : Ordered compare l) {i j : Nat} {a b : α} (ha : l[i]? = some a)
    (hb : l[j]? = some b) (heq : compare a = .eq) (heq' : compare b = .eq) : i = j := by
  rcases Nat.lt_trichotomy i j with hlt | rfl | hgt
  · have hbefore := h.lt_of_lt hlt ha hb (by simp [heq])
    simp [heq'] at hbefore
  · rfl
  · have hbefore := h.lt_of_lt hgt hb ha (by simp [heq'])
    simp [heq] at hbefore

/-- What is not in the list is not found. -/
theorem bisect_eq_neg_one (h : ∀ a ∈ l, compare a ≠ .eq) (left right : Int) :
    bisect compare l left right = -1 := by
  induction left, right using bisect.induct compare l with
  | case1 left right hle mid hnone =>
    rw [bisect, if_pos hle]
    dsimp only
    rw [hnone]
  | case2 left right hle mid heq =>
    obtain ⟨a, ha, hcompare⟩ := Option.map_eq_some_iff.mp heq
    exact absurd hcompare (h a (List.mem_of_getElem? ha))
  | case3 left right hle mid hlt ih =>
    rw [bisect, if_pos hle]
    dsimp only
    rw [hlt]
    exact ih
  | case4 left right hle mid hgt ih =>
    rw [bisect, if_pos hle]
    dsimp only
    rw [hgt]
    exact ih
  | case5 left right hle => rw [bisect, if_neg hle]

/-- What is in an ordered list between the bounds is found. -/
theorem bisect_eq (h : Ordered compare l) {i : Nat} {a : α} (ha : l[i]? = some a)
    (heq : compare a = .eq) {left right : Int} (hleft : 0 ≤ left) (hlow : left ≤ i)
    (hhigh : i ≤ right) (hright : right < l.length) : bisect compare l left right = i := by
  induction left, right using bisect.induct compare l with
  | case1 left right hle mid hnone =>
    simp only [mid, Option.map_eq_none_iff, List.getElem?_eq_none_iff] at hnone
    omega
  | case2 left right hle mid hmid =>
    rw [bisect, if_pos hle]
    dsimp only
    obtain ⟨b, hb, hcompare⟩ := Option.map_eq_some_iff.mp hmid
    have hsame := h.eq_unique ha hb heq hcompare
    rw [hmid]
    dsimp only
    omega
  | case3 left right hle mid hlt ih =>
    rw [bisect, if_pos hle]
    dsimp only
    obtain ⟨b, hb, hcompare⟩ := Option.map_eq_some_iff.mp hlt
    have hbefore : (i : Int) < (left + right) / 2 := by
      by_contra hge
      rcases Nat.lt_or_eq_of_le (show ((left + right) / 2).toNat ≤ i by omega) with hless | hsame
      · have hafter := h.lt_of_lt hless hb ha (by simp [hcompare])
        simp [heq] at hafter
      · rw [hsame, ha] at hb
        cases hb
        simp [heq] at hcompare
    rw [hlt]
    exact ih hleft hlow (by omega) (by omega)
  | case4 left right hle mid hgt ih =>
    rw [bisect, if_pos hle]
    dsimp only
    obtain ⟨b, hb, hcompare⟩ := Option.map_eq_some_iff.mp hgt
    have hafter : (left + right) / 2 < (i : Int) := by
      by_contra hge
      rcases Nat.lt_or_eq_of_le (show i ≤ ((left + right) / 2).toNat by omega) with hless | hsame
      · have hbefore := h.lt_of_lt hless ha hb (by simp [heq])
        simp [hcompare] at hbefore
      · rw [← hsame, ha] at hb
        cases hb
        simp [heq] at hcompare
    rw [hgt]
    exact ih (by omega) (by omega) hhigh hright
  | case5 left right hle => omega

end SentryCocoa.Library.Bisection
