import Mathlib.Data.List.DropRight

/-! Two parts of a log: values are added to the newer part, which becomes the older one when
it holds `m` values; what was in the older part is lost then. -/
namespace SentryCocoa.Library.Rotation

variable {α : Type*}

structure RotatingLog (α : Type*) where
  older : Option (List α)
  newer : List α

namespace RotatingLog

def empty : RotatingLog α := ⟨none, []⟩

def push (m : Nat) (log : RotatingLog α) (a : α) : RotatingLog α :=
  if m ≤ log.newer.length + 1 then ⟨some (log.newer ++ [a]), []⟩
  else ⟨log.older, log.newer ++ [a]⟩

def read (log : RotatingLog α) : List α := log.older.getD [] ++ log.newer

end RotatingLog

/-- What is left of the values that were added: the last full part and the one after it. -/
def kept (m : Nat) (values : List α) : List α :=
  if values.length < m then values else values.rtake (m + values.length % m)

/-- The newer part is never full, and the older one, if there is one, follows on a number of
full parts that are lost. -/
inductive Holds (m : Nat) (values : List α) : RotatingLog α → Prop
  | fresh (lt : values.length < m) : Holds m values ⟨none, values⟩
  | rotated {older newer : List α} (k : Nat) (lost : List α) (length_lost : lost.length = k * m)
      (length_older : older.length = m) (lt : newer.length < m)
      (values_eq : values = lost ++ older ++ newer) : Holds m values ⟨some older, newer⟩

theorem Holds.empty {m : Nat} (hm : 0 < m) : Holds m [] (RotatingLog.empty : RotatingLog α) :=
  .fresh hm

theorem Holds.push {m : Nat} {values : List α} {log : RotatingLog α} (holds : Holds m values log)
    (a : α) : Holds m (values ++ [a]) (log.push m a) := by
  unfold RotatingLog.push
  cases holds with
  | fresh lt =>
    dsimp only
    split
    · rename_i hfull
      apply Holds.rotated 0 [] (by simp)
      · simp only [List.length_append, List.length_singleton]
        omega
      · exact Nat.zero_lt_of_lt lt
      · simp
    · rename_i hfree
      apply Holds.fresh
      simp only [List.length_append, List.length_singleton]
      omega
  | @rotated older newer k lost length_lost length_older lt values_eq =>
    dsimp only
    split
    · rename_i hfull
      have hm : 0 < m := Nat.zero_lt_of_lt lt
      apply Holds.rotated (k + 1) (lost ++ older)
      · rw [List.length_append, length_lost, length_older, Nat.succ_mul]
      · simp only [List.length_append, List.length_singleton]
        omega
      · exact hm
      · simp [values_eq]
    · rename_i hfree
      apply Holds.rotated k lost length_lost length_older
      · simp only [List.length_append, List.length_singleton]
        omega
      · simp [values_eq]

theorem Holds.newer_lt {m : Nat} {values : List α} {log : RotatingLog α}
    (holds : Holds m values log) : log.newer.length < m := by
  cases holds with
  | fresh lt => exact lt
  | rotated k lost length_lost length_older lt values_eq => exact lt

theorem Holds.older_length {m : Nat} {values : List α} {log : RotatingLog α}
    (holds : Holds m values log) : ∀ older ∈ log.older, older.length = m := by
  intro older holder
  cases holds with
  | fresh lt => cases holder
  | rotated k lost length_lost length_older lt values_eq =>
    cases holder
    exact length_older

theorem Holds.read_eq {m : Nat} {values : List α} {log : RotatingLog α}
    (holds : Holds m values log) : log.read = kept m values := by
  unfold RotatingLog.read kept
  cases holds with
  | fresh lt =>
    rw [if_pos lt]
    rfl
  | @rotated older newer k lost length_lost length_older lt values_eq =>
    have hlength : values.length = m * (k + 1) + newer.length := by
      rw [values_eq, List.length_append, List.length_append, length_lost, length_older,
        Nat.mul_succ, Nat.mul_comm]
    have hmod : values.length % m = newer.length := by
      rw [hlength, Nat.mul_add_mod, Nat.mod_eq_of_lt lt]
    have hdrop : values.length - (m + values.length % m) = lost.length := by
      rw [hmod, hlength, length_lost, Nat.mul_succ, Nat.mul_comm]
      omega
    rw [if_neg (by rw [hlength, Nat.mul_succ]; omega), List.rtake, hdrop, values_eq,
      List.append_assoc, List.drop_left]
    rfl

theorem kept_subset (m : Nat) (values : List α) : kept m values ⊆ values := by
  unfold kept
  split
  · exact List.Subset.refl values
  · exact (List.drop_sublist _ _).subset

end SentryCocoa.Library.Rotation
