import Mathlib.Data.List.Basic

/-! Lists whose entries are marked as gone and never taken out. The first entry that a test
accepts is the one that is marked, whether it is there or gone already. -/
namespace SentryCocoa.Library.Tombstones

variable {α : Type*}

structure Slot (α : Type*) where
  value : α
  live : Bool

def visible (slots : List (Slot α)) : List α := (slots.filter Slot.live).map Slot.value

def bury (p : α → Bool) : List (Slot α) → List (Slot α)
  | [] => []
  | slot :: rest => if p slot.value then { slot with live := false } :: rest else slot :: bury p rest

/-- Whether the first entry that the test accepts is there. -/
def first (p : α → Bool) : List (Slot α) → Option Bool
  | [] => none
  | slot :: rest => if p slot.value then some slot.live else first p rest

theorem visible_cons (slot : Slot α) (rest : List (Slot α)) :
    visible (slot :: rest) = (if slot.live then [slot.value] else []) ++ visible rest := by
  unfold visible
  cases h : slot.live with
  | true => rw [List.filter_cons_of_pos h]; rfl
  | false => rw [List.filter_cons_of_neg (by simp [h])]; rfl

theorem visible_append (slots more : List (Slot α)) :
    visible (slots ++ more) = visible slots ++ visible more := by
  unfold visible
  rw [List.filter_append, List.map_append]

theorem first_append (p : α → Bool) (slots more : List (Slot α)) :
    first p (slots ++ more) = (first p slots).or (first p more) := by
  induction slots with
  | nil => rfl
  | cons slot rest ih =>
    rw [List.cons_append, first, first]
    split
    · rfl
    · exact ih

/-- An entry that is seen was accepted, at the latest there. -/
theorem first_ne_none {p : α → Bool} {slots : List (Slot α)} {value : α}
    (hvalue : value ∈ visible slots) (hp : p value = true) : first p slots ≠ none := by
  induction slots with
  | nil => cases hvalue
  | cons slot rest ih =>
    rw [first]
    split
    · exact Option.some_ne_none _
    · rename_i hslot
      rw [visible_cons, List.mem_append] at hvalue
      rcases hvalue with hhere | hrest
      · split at hhere
        · rw [List.mem_singleton.mp hhere] at hp
          exact absurd hp hslot
        · cases hhere
      · exact ih hrest

theorem exists_of_first {p : α → Bool} {slots : List (Slot α)} (h : first p slots = some true) :
    ∃ value ∈ visible slots, p value = true := by
  induction slots with
  | nil => cases h
  | cons slot rest ih =>
    rw [first] at h
    rw [visible_cons]
    split at h
    · rename_i hp
      have hlive : slot.live = true := Option.some.inj h
      rw [if_pos hlive]
      exact ⟨slot.value, List.mem_cons_self, hp⟩
    · obtain ⟨value, hvalue, hp⟩ := ih h
      exact ⟨value, List.mem_append_right _ hvalue, hp⟩

/-- What is seen without the first entry that the test accepts. -/
theorem visible_bury_live {p : α → Bool} {slots : List (Slot α)}
    (h : first p slots = some true) : visible (bury p slots) = (visible slots).eraseP p := by
  induction slots with
  | nil => cases h
  | cons slot rest ih =>
    rw [first] at h
    rw [bury]
    split at h
    · rename_i hp
      have hlive : slot.live = true := Option.some.inj h
      rw [if_pos hp, visible_cons, visible_cons, if_pos hlive, List.singleton_append,
        List.eraseP_cons_of_pos hp]
      rfl
    · rename_i hp
      rw [if_neg hp, visible_cons, visible_cons, ih h]
      split
      · rw [List.singleton_append, List.singleton_append, List.eraseP_cons_of_neg hp]
      · rfl

theorem visible_bury_of_ne {p : α → Bool} {slots : List (Slot α)}
    (h : first p slots ≠ some true) : visible (bury p slots) = visible slots := by
  induction slots with
  | nil => rfl
  | cons slot rest ih =>
    rw [first] at h
    rw [bury]
    split at h
    · rename_i hp
      have hlive : ¬slot.live = true := fun hlive => h (congrArg some hlive)
      rw [if_pos hp, visible_cons, visible_cons, if_neg hlive]
      rfl
    · rename_i hp
      rw [if_neg hp, visible_cons, visible_cons, ih h]

theorem first_bury_self (p : α → Bool) (slots : List (Slot α)) :
    first p (bury p slots) = (first p slots).map fun _ => false := by
  induction slots with
  | nil => rfl
  | cons slot rest ih =>
    rw [bury]
    split
    · rename_i hp
      rw [first, first, if_pos hp, if_pos hp]
      rfl
    · rename_i hp
      rw [first, first, if_neg hp, if_neg hp, ih]

theorem first_bury_other {p q : α → Bool} (hother : ∀ value, p value = true → q value = false)
    (slots : List (Slot α)) : first q (bury p slots) = first q slots := by
  induction slots with
  | nil => rfl
  | cons slot rest ih =>
    rw [bury]
    split
    · rename_i hp
      rw [first, first, hother slot.value hp]
      rfl
    · rw [first, first, ih]

end SentryCocoa.Library.Tombstones
