import Mathlib.Algebra.Ring.Nat
import Mathlib.Data.List.Basic
import Mathlib.Data.List.Perm.Subperm

/-! A queue whose members are admitted one after the other while there is room. Who is admitted
depends on the order; a member that is admitted in every order is one that no others can crowd
out. -/
namespace SentryCocoa.Library.Admission

variable {α : Type*} (weight : α → Nat) (capacity : Nat)

def total (members : List α) : Nat := (members.map weight).sum

/-- Those who find room, when some of it is used already. -/
def fill : Nat → List α → List α
  | _, [] => []
  | used, a :: rest =>
    if weight a + used ≤ capacity then a :: fill (used + weight a) rest else fill used rest

@[simp] theorem total_nil : total weight [] = 0 := rfl

@[simp] theorem total_cons (a : α) (rest : List α) :
    total weight (a :: rest) = weight a + total weight rest := List.sum_cons

variable {weight capacity}

theorem fill_sublist (used : Nat) (members : List α) :
    (fill weight capacity used members).Sublist members := by
  induction members generalizing used with
  | nil => exact List.Sublist.refl _
  | cons a rest ih =>
    unfold fill
    split
    · exact (ih _).cons_cons a
    · exact (ih _).cons a

theorem total_fill_le {used : Nat} (hused : used ≤ capacity) (members : List α) :
    used + total weight (fill weight capacity used members) ≤ capacity := by
  induction members generalizing used with
  | nil => exact hused
  | cons a rest ih =>
    unfold fill
    split
    · have hmore : used + weight a ≤ capacity := by omega
      have hrest := ih hmore
      rw [total_cons]
      omega
    · exact ih hused

/-- There is room for all of them. -/
theorem fill_eq_self {used : Nat} {members : List α}
    (h : used + total weight members ≤ capacity) : fill weight capacity used members = members := by
  induction members generalizing used with
  | nil => rfl
  | cons a rest ih =>
    rw [total_cons] at h
    unfold fill
    rw [if_pos (by omega), ih (by omega)]

theorem fill_append (used : Nat) (first second : List α) :
    fill weight capacity used (first ++ second) =
      fill weight capacity used first ++
        fill weight capacity (used + total weight (fill weight capacity used first)) second := by
  induction first generalizing used with
  | nil => rfl
  | cons a rest ih =>
    rw [List.cons_append, fill, fill]
    split
    · rw [ih, total_cons, List.cons_append, Nat.add_assoc]
    · exact ih used

/-- Whoever fits beside the others leave room for it. -/
def Uncrowded (weight : α → Nat) (capacity : Nat) (a : α) (members : List α) : Prop :=
  ∀ others, (a :: others).Subperm members → total weight others ≤ capacity →
    weight a + total weight others ≤ capacity

theorem Uncrowded.perm {a : α} {members members' : List α}
    (h : Uncrowded weight capacity a members) (hperm : members'.Perm members) :
    Uncrowded weight capacity a members' :=
  fun others hsub => h others (hsub.trans hperm.subperm)

/-- The member is admitted where it stands. -/
theorem mem_fill_of_uncrowded {a : α} {members : List α} (ha : a ∈ members)
    (h : Uncrowded weight capacity a members) : a ∈ fill weight capacity 0 members := by
  obtain ⟨first, second, rfl⟩ := List.append_of_mem ha
  have hle : 0 + total weight (fill weight capacity 0 first) ≤ capacity :=
    total_fill_le (Nat.zero_le capacity) first
  rw [Nat.zero_add] at hle
  have hsub : (a :: fill weight capacity 0 first).Subperm (first ++ a :: second) := by
    have hcons : (a :: fill weight capacity 0 first).Subperm (a :: first) :=
      ((fill_sublist 0 first).cons_cons a).subperm
    refine hcons.trans ?_
    have hperm : (first ++ a :: second).Perm (a :: (first ++ second)) := List.perm_middle
    exact ((List.sublist_append_left first second).cons_cons a).subperm.trans hperm.symm.subperm
  have hroom := h _ hsub hle
  rw [fill_append, Nat.zero_add, fill, if_pos hroom]
  exact List.mem_append_right _ List.mem_cons_self

/-- A member that some others crowd out comes after them in some order. -/
theorem uncrowded_of_forall_perm {a : α} {members : List α} (hnodup : members.Nodup)
    (h : ∀ order : List α, order.Perm members → a ∈ fill weight capacity 0 order) :
    Uncrowded weight capacity a members := by
  intro others hsub hfits
  obtain ⟨queue, hqueue, hsublist⟩ := hsub
  obtain ⟨rest, hrest⟩ := hsublist.exists_perm_append
  have horder : (others ++ a :: rest).Perm members := by
    have hmoved : (others ++ a :: rest).Perm (a :: others ++ rest) := List.perm_middle
    exact hmoved.trans ((hqueue.symm.append_right rest).trans hrest.symm)
  have hmem := h _ horder
  have hnodup' : (others ++ a :: rest).Nodup := horder.nodup_iff.mpr hnodup
  obtain ⟨-, hright, hdisjoint⟩ := List.nodup_append.mp hnodup'
  have hothers : fill weight capacity 0 others = others := fill_eq_self (by omega)
  rw [fill_append, hothers, Nat.zero_add] at hmem
  rcases List.mem_append.mp hmem with hfirst | hsecond
  · exact absurd rfl (hdisjoint a hfirst a List.mem_cons_self)
  · by_contra hcrowded
    rw [fill, if_neg hcrowded] at hsecond
    exact (List.nodup_cons.mp hright).1 ((fill_sublist _ rest).subset hsecond)

end SentryCocoa.Library.Admission
