import Mathlib.Data.List.Basic

/-! The binary search for the first element of a list that is kept. It finds the right place in
every list in which nothing that is dropped comes behind something that is kept, and in no other
list does any place divide the two. -/
namespace SentryCocoa.Library.PartitionPoint

variable {α : Type*} (keep : α → Bool)

/-- Between `left` and `right`. -/
def partitionPoint (l : List α) (left right : Nat) : Nat :=
  if left < right then
    let mid := (left + right) / 2
    if (l[mid]?).all keep then partitionPoint l left mid
    else partitionPoint l (mid + 1) right
  else left
termination_by right - left

/-- Nothing that is dropped comes behind something that is kept. -/
def Divided (l : List α) : Prop := l.Pairwise fun a b => keep a = true → keep b = true

/-- The search stays between its bounds. -/
theorem partitionPoint_mem (l : List α) {left right : Nat} (h : left ≤ right) :
    left ≤ partitionPoint keep l left right ∧ partitionPoint keep l left right ≤ right := by
  induction left, right using partitionPoint.induct keep l with
  | case1 left right hlt mid hkeep ih =>
    rw [partitionPoint, if_pos hlt]
    have hbounds := ih (by omega)
    dsimp only
    rw [if_pos hkeep]
    exact ⟨hbounds.1, Nat.le_trans hbounds.2 (by omega)⟩
  | case2 left right hlt mid hdrop ih =>
    rw [partitionPoint, if_pos hlt]
    have hbounds := ih (by omega)
    dsimp only
    rw [if_neg hdrop]
    exact ⟨Nat.le_trans (by omega) hbounds.1, hbounds.2⟩
  | case3 left right hge =>
    rw [partitionPoint, if_neg hge]
    exact ⟨Nat.le_refl _, h⟩

variable {keep}

theorem partitionPoint_congr {keep' : α → Bool} {l : List α}
    (h : ∀ a ∈ l, keep a = keep' a) (left right : Nat) :
    partitionPoint keep l left right = partitionPoint keep' l left right := by
  have hall : ∀ i : Nat, (l[i]?).all keep = (l[i]?).all keep' := by
    intro i
    cases hi : l[i]? with
    | none => rfl
    | some a => exact h a (List.mem_of_getElem? hi)
  induction left, right using partitionPoint.induct keep l with
  | case1 left right hlt mid hkeep ih =>
    rw [partitionPoint, partitionPoint, if_pos hlt, if_pos hlt]
    dsimp only
    rw [← hall, if_pos hkeep, if_pos hkeep]
    exact ih
  | case2 left right hlt mid hdrop ih =>
    rw [partitionPoint, partitionPoint, if_pos hlt, if_pos hlt]
    dsimp only
    rw [← hall, if_neg hdrop, if_neg hdrop]
    exact ih
  | case3 left right hge =>
    rw [partitionPoint, partitionPoint, if_neg hge, if_neg hge]

/-- The halving comes by the second element and the first one before it ends at the front. -/
theorem keep_of_partitionPoint_eq_zero {l : List α} {right : Nat}
    (h : partitionPoint keep l 0 right = 0) {i : Nat} (hi : i < l.length) (hright : i < right)
    (hsecond : i < 2) : keep l[i] = true := by
  induction right using Nat.strongRecOn with
  | ind right ih =>
    rw [partitionPoint, if_pos (by omega)] at h
    dsimp only at h
    by_cases hkeep : (l[(0 + right) / 2]?).all keep = true
    · rw [if_pos hkeep] at h
      by_cases hmid : i = (0 + right) / 2
      · rw [← hmid, List.getElem?_eq_getElem hi, Option.all_some] at hkeep
        exact hkeep
      · exact ih ((0 + right) / 2) (by omega) h (by omega)
    · rw [if_neg hkeep] at h
      have hbounds := partitionPoint_mem keep l
        (show (0 + right) / 2 + 1 ≤ right by omega)
      omega

/-- A cut between the bounds is found. -/
theorem partitionPoint_eq {l : List α} {cut left right : Nat}
    (hcut : ∀ i (hi : i < l.length), keep l[i] = true ↔ cut ≤ i)
    (hleft : left ≤ cut) (hright : cut ≤ right) (hlength : right ≤ l.length) :
    partitionPoint keep l left right = cut := by
  induction left, right using partitionPoint.induct keep l with
  | case1 left right hlt mid hkeep ih =>
    rw [partitionPoint, if_pos hlt]
    dsimp only
    rw [if_pos hkeep]
    have hmid : mid < l.length := by omega
    rw [List.getElem?_eq_getElem hmid, Option.all_some, hcut mid hmid] at hkeep
    exact ih hleft hkeep (by omega)
  | case2 left right hlt mid hdrop ih =>
    rw [partitionPoint, if_pos hlt]
    dsimp only
    rw [if_neg hdrop]
    have hmid : mid < l.length := by omega
    rw [List.getElem?_eq_getElem hmid, Option.all_some, hcut mid hmid] at hdrop
    exact ih (by omega) hright hlength
  | case3 left right hge =>
    rw [partitionPoint, if_neg hge]
    omega

/-- The first kept element of a divided list is its cut. -/
theorem Divided.findIdx {l : List α} (h : Divided keep l) (i : Nat) (hi : i < l.length) :
    keep l[i] = true ↔ l.findIdx keep ≤ i := by
  constructor
  · intro hkeep
    by_contra hlt
    have hdrop := List.not_of_lt_findIdx (Nat.not_le.mp hlt)
    rw [hkeep] at hdrop
    cases hdrop
  · intro hle
    have hfind : l.findIdx keep < l.length := by omega
    have hfirst : keep l[l.findIdx keep] = true := List.findIdx_getElem
    rcases Nat.lt_or_eq_of_le hle with hlt | heq
    · exact List.pairwise_iff_getElem.mp h _ i (by omega) hi hlt hfirst
    · simpa only [heq] using hfirst

theorem Divided.partitionPoint_eq_findIdx {l : List α} (h : Divided keep l) :
    partitionPoint keep l 0 l.length = l.findIdx keep :=
  partitionPoint_eq h.findIdx (Nat.zero_le _) List.findIdx_le_length (Nat.le_refl _)

/-- A list is divided when some place divides what is dropped from what is kept. -/
theorem divided_of_drop_eq_filter {l : List α} {cut : Nat} (h : l.drop cut = l.filter keep) :
    Divided keep l := by
  have hdrop : ∀ a ∈ l.drop cut, keep a = true := by
    rw [h]
    exact fun a ha => (List.mem_filter.mp ha).2
  have htake : (l.take cut).filter keep = [] := by
    have hsplit : (l.take cut).filter keep ++ (l.drop cut).filter keep = l.drop cut := by
      rw [← List.filter_append, List.take_append_drop, h]
    rw [List.filter_eq_self.mpr hdrop] at hsplit
    exact List.append_left_eq_self.mp hsplit
  unfold Divided
  rw [← List.take_append_drop cut l, List.pairwise_append]
  refine ⟨?_, ?_, ?_⟩
  · exact List.pairwise_of_forall_mem_list fun a ha b _ hkeep =>
      absurd hkeep (List.filter_eq_nil_iff.mp htake a ha)
  · exact List.pairwise_of_forall_mem_list fun a _ b hb _ => hdrop b hb
  · exact fun a _ b hb _ => hdrop b hb

/-- Dropping what comes before the place that the search finds keeps what is to be kept exactly
when the list is divided. -/
theorem drop_partitionPoint_eq_filter_iff (l : List α) :
    l.drop (partitionPoint keep l 0 l.length) = l.filter keep ↔ Divided keep l := by
  constructor
  · exact divided_of_drop_eq_filter
  · intro h
    have hcut := h.findIdx
    rw [h.partitionPoint_eq_findIdx]
    have htake : (l.take (l.findIdx keep)).filter keep = [] := by
      rw [List.filter_eq_nil_iff]
      intro a ha hkeep
      obtain ⟨i, hi, rfl⟩ := List.mem_iff_getElem.mp ha
      rw [List.length_take] at hi
      rw [List.getElem_take, hcut i (by omega)] at hkeep
      omega
    have hdrop : (l.drop (l.findIdx keep)).filter keep = l.drop (l.findIdx keep) := by
      rw [List.filter_eq_self]
      intro a ha
      obtain ⟨i, hi, rfl⟩ := List.mem_iff_getElem.mp ha
      rw [List.length_drop] at hi
      rw [List.getElem_drop, hcut _ (by omega)]
      omega
    calc l.drop (l.findIdx keep)
        = (l.take (l.findIdx keep)).filter keep ++ (l.drop (l.findIdx keep)).filter keep := by
          rw [htake, hdrop, List.nil_append]
      _ = l.filter keep := by
          rw [← List.filter_append, List.take_append_drop]

/-- An element that is inserted at the place that the search finds stands before what is kept
and behind what is dropped. -/
theorem Divided.pairwise_insertIdx {R : α → α → Prop} {l : List α} (h : Divided keep l)
    (hpair : l.Pairwise R) {a : α} (hkeep : ∀ b ∈ l, keep b = true → R a b)
    (hdrop : ∀ b ∈ l, keep b = false → R b a) :
    (l.insertIdx (partitionPoint keep l 0 l.length) a).Pairwise R := by
  rw [h.partitionPoint_eq_findIdx]
  induction l with
  | nil => exact List.pairwise_singleton R a
  | cons b l ih =>
    have hdivided := List.pairwise_cons.mp h
    have hcons := List.pairwise_cons.mp hpair
    rw [List.findIdx_cons]
    cases hb : keep b with
    | true =>
      rw [cond_true, List.insertIdx_zero, List.pairwise_cons]
      refine ⟨fun c hc => ?_, hpair⟩
      rcases List.mem_cons.mp hc with rfl | hmem
      · exact hkeep c hc hb
      · exact hkeep c hc (hdivided.1 c hmem hb)
    | false =>
      rw [cond_false, List.insertIdx_succ_cons, List.pairwise_cons]
      refine ⟨fun c hc => ?_, ih hdivided.2 hcons.2
        (fun c hc => hkeep c (List.mem_cons_of_mem b hc))
        (fun c hc => hdrop c (List.mem_cons_of_mem b hc))⟩
      rcases (List.mem_insertIdx List.findIdx_le_length).mp hc with rfl | hmem
      · exact hdrop b List.mem_cons_self hb
      · exact hcons.1 c hmem

end SentryCocoa.Library.PartitionPoint
