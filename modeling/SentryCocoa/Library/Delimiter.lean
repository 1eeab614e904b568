import Mathlib.Data.List.Count
import Mathlib.Data.List.Forall2

/-! Lists that are read up to a delimiter. -/
namespace SentryCocoa.Library.Delimiter

variable {α : Type*} [DecidableEq α]

/-- Up to the first delimiter and with it, or everything. -/
def upTo (delimiter : α) : List α → List α
  | [] => []
  | a :: l => if a = delimiter then [a] else a :: upTo delimiter l

variable {delimiter a : α} {l rest : List α}

@[simp] theorem upTo_nil : upTo delimiter [] = [] := rfl

theorem upTo_cons_self : upTo delimiter (delimiter :: l) = [delimiter] := if_pos rfl

theorem upTo_cons_of_ne (h : a ≠ delimiter) :
    upTo delimiter (a :: l) = a :: upTo delimiter l := if_neg h

theorem upTo_append_of_not_mem (h : delimiter ∉ l) :
    upTo delimiter (l ++ rest) = l ++ upTo delimiter rest := by
  induction l with
  | nil => rfl
  | cons a l ih =>
    rw [List.mem_cons, not_or] at h
    rw [List.cons_append, upTo_cons_of_ne (Ne.symm h.1), ih h.2, List.cons_append]

theorem upTo_append_of_mem (h : delimiter ∈ l) :
    upTo delimiter (l ++ rest) = upTo delimiter l := by
  induction l with
  | nil => cases h
  | cons a l ih =>
    by_cases ha : a = delimiter
    · subst ha
      rw [List.cons_append, upTo_cons_self, upTo_cons_self]
    · rw [List.cons_append, upTo_cons_of_ne ha, upTo_cons_of_ne ha,
        ih ((List.mem_cons.mp h).resolve_left (Ne.symm ha))]

theorem length_upTo_le : (upTo delimiter l).length ≤ l.length := by
  induction l with
  | nil => exact Nat.le_refl 0
  | cons a l ih =>
    by_cases ha : a = delimiter
    · subst ha
      rw [upTo_cons_self]
      exact Nat.succ_le_succ (Nat.zero_le _)
    · rw [upTo_cons_of_ne ha]
      exact Nat.succ_le_succ ih

theorem upTo_eq_nil_iff : upTo delimiter l = [] ↔ l = [] := by
  cases l with
  | nil => exact iff_of_true rfl rfl
  | cons a l =>
    refine iff_of_false ?_ (List.cons_ne_nil a l)
    by_cases ha : a = delimiter
    · subst ha
      rw [upTo_cons_self]
      exact List.cons_ne_nil _ _
    · rw [upTo_cons_of_ne ha]
      exact List.cons_ne_nil _ _

/-- It ends with the delimiter when there is one. -/
theorem getLast?_upTo : (upTo delimiter l).getLast? = some delimiter ↔ delimiter ∈ l := by
  induction l with
  | nil => exact iff_of_false nofun List.not_mem_nil
  | cons a l ih =>
    by_cases ha : a = delimiter
    · subst ha
      rw [upTo_cons_self]
      exact iff_of_true rfl List.mem_cons_self
    · rw [upTo_cons_of_ne ha, List.mem_cons, or_iff_right (Ne.symm ha), ← ih]
      cases l with
      | nil => simpa using ha
      | cons b l =>
        have hsome : upTo delimiter (b :: l) ≠ [] :=
          upTo_eq_nil_iff.not.mpr (List.cons_ne_nil b l)
        rw [List.getLast?_cons, List.getLast?_eq_some_getLast hsome]
        simp

/-! ## Lines -/

def prepend (a : α) : List (List α) → List (List α)
  | [] => [[a]]
  | line :: rest => (a :: line) :: rest

/-- What stands between the delimiters, and behind the last one if anything does. -/
def lines (delimiter : α) : List α → List (List α)
  | [] => []
  | a :: l => if a = delimiter then [] :: lines delimiter l else prepend a (lines delimiter l)

/-- Nothing stands behind the last delimiter. -/
def Terminated (delimiter : α) (l : List α) : Prop := l = [] ∨ l.getLast? = some delimiter

omit [DecidableEq α] in
theorem length_prepend (a : α) (ls : List (List α)) :
    (prepend a ls).length = max 1 ls.length := by
  cases ls with
  | nil => rfl
  | cons line rest =>
    rw [prepend, List.length_cons, List.length_cons]
    omega

omit [DecidableEq α] in
theorem flatten_prepend (a : α) (ls : List (List α)) :
    (prepend a ls).flatten = a :: ls.flatten := by
  cases ls <;> rfl

theorem lines_cons_self : lines delimiter (delimiter :: l) = [] :: lines delimiter l := if_pos rfl

theorem lines_cons_of_ne (h : a ≠ delimiter) :
    lines delimiter (a :: l) = prepend a (lines delimiter l) := if_neg h

theorem lines_append_cons (h : delimiter ∉ l) :
    lines delimiter (l ++ delimiter :: rest) = l :: lines delimiter rest := by
  induction l with
  | nil => exact lines_cons_self
  | cons a l ih =>
    rw [List.mem_cons, not_or] at h
    rw [List.cons_append, lines_cons_of_ne (Ne.symm h.1), ih h.2, prepend]

/-- The lines have everything but the delimiters. -/
theorem flatten_lines : (lines delimiter l).flatten = l.filter (· ≠ delimiter) := by
  induction l with
  | nil => rfl
  | cons a l ih =>
    by_cases ha : a = delimiter
    · subst ha
      rw [lines_cons_self, List.flatten_cons, ih]
      simp
    · rw [lines_cons_of_ne ha, flatten_prepend, ih, List.filter_cons_of_pos (by simpa using ha)]

theorem length_flatten_lines :
    (lines delimiter l).flatten.length + l.count delimiter = l.length := by
  rw [flatten_lines]
  induction l with
  | nil => rfl
  | cons a l ih =>
    by_cases ha : a = delimiter
    · subst ha
      simp only [ne_eq, not_true_eq_false, decide_false, Bool.false_eq_true, not_false_eq_true,
        List.filter_cons_of_neg, List.count_cons_self, List.length_cons] at ih ⊢
      omega
    · rw [List.filter_cons_of_pos (by simpa using ha), List.count_cons_of_ne ha,
        List.length_cons, List.length_cons]
      omega

omit [DecidableEq α] in
theorem terminated_cons_self : Terminated delimiter (delimiter :: l) ↔ Terminated delimiter l := by
  cases l with
  | nil => exact iff_of_true (Or.inr rfl) (Or.inl rfl)
  | cons b l => simp [Terminated, List.getLast?_cons]

omit [DecidableEq α] in
theorem terminated_cons_of_ne (h : a ≠ delimiter) :
    Terminated delimiter (a :: l) ↔ l ≠ [] ∧ Terminated delimiter l := by
  cases l with
  | nil => simp [Terminated, h]
  | cons b l => simp [Terminated, List.getLast?_cons]

/-- There is a line for each delimiter, and one more when the last one has none. -/
theorem count_le_length_lines : l.count delimiter ≤ (lines delimiter l).length ∧
    ((lines delimiter l).length ≤ l.count delimiter → Terminated delimiter l) := by
  induction l with
  | nil => exact ⟨Nat.le_refl 0, fun _ => Or.inl rfl⟩
  | cons a l ih =>
    by_cases ha : a = delimiter
    · subst ha
      rw [lines_cons_self, List.count_cons_self, List.length_cons, terminated_cons_self]
      exact ⟨Nat.succ_le_succ ih.1, fun h => ih.2 (Nat.le_of_succ_le_succ h)⟩
    · rw [lines_cons_of_ne ha, List.count_cons_of_ne ha, length_prepend,
        terminated_cons_of_ne ha]
      refine ⟨by omega, fun h => ?_⟩
      have hsome : l ≠ [] := by
        intro hnil
        subst hnil
        rw [List.count_nil] at h
        omega
      exact ⟨hsome, ih.2 (by omega)⟩

/-- What is terminated is empty, or it begins with a line and its delimiter. -/
theorem Terminated.cases (h : Terminated delimiter l) : l = [] ∨
    ∃ line behind, delimiter ∉ line ∧ l = line ++ delimiter :: behind ∧
      Terminated delimiter behind := by
  induction l with
  | nil => exact Or.inl rfl
  | cons a l ih =>
    right
    by_cases ha : a = delimiter
    · subst ha
      exact ⟨[], l, List.not_mem_nil, rfl, terminated_cons_self.mp h⟩
    · obtain ⟨hsome, hrest⟩ := (terminated_cons_of_ne ha).mp h
      obtain ⟨line, behind, hline, rfl, hbehind⟩ := (ih hrest).resolve_left hsome
      refine ⟨a :: line, behind, ?_, rfl, hbehind⟩
      rw [List.mem_cons, not_or]
      exact ⟨Ne.symm ha, hline⟩

/-- The elements are the lines, of which those that do not fit are split. -/
def Splits (fits : Nat) (ls elements : List (List α)) : Prop :=
  ∃ pieces, elements = pieces.flatten ∧
    List.Forall₂ (fun line ps => ps.flatten = line ∧ (line.length ≤ fits → ps = [line])) ls pieces

omit [DecidableEq α] in
theorem Splits.refl (fits : Nat) (ls : List (List α)) : Splits fits ls ls := by
  refine ⟨ls.map fun line => [line], ?_, ?_⟩
  · induction ls with
    | nil => rfl
    | cons line ls ih => exact congrArg (line :: ·) ih
  · rw [List.forall₂_map_right_iff]
    exact List.forall₂_same.mpr fun line _ => ⟨List.append_nil line, fun _ => rfl⟩

omit [DecidableEq α] in
/-- Nothing is lost, and every line is there. If there are not more elements than lines, none is
split. -/
theorem Splits.spec {fits : Nat} {ls elements : List (List α)} (h : Splits fits ls elements) :
    elements.flatten = ls.flatten ∧ ls.length ≤ elements.length ∧
      (elements.length ≤ ls.length → elements = ls) := by
  obtain ⟨pieces, rfl, hpieces⟩ := h
  induction hpieces with
  | nil => exact ⟨rfl, Nat.le_refl 0, fun _ => rfl⟩
  | @cons line ps ls pieces hline _ ih =>
    obtain ⟨hflatten, hlength, hsame⟩ := ih
    have hsome : 1 ≤ ps.length := by
      cases ps with
      | nil =>
        have hnil : line = [] := hline.1.symm
        have hone := hline.2 (by rw [hnil]; exact Nat.zero_le _)
        cases hone
      | cons p ps => exact Nat.succ_le_succ (Nat.zero_le _)
    rw [List.flatten_cons, List.flatten_append, hline.1, hflatten, List.length_append,
      List.length_cons]
    refine ⟨rfl, by omega, fun hle => ?_⟩
    obtain ⟨p, rfl⟩ := List.length_eq_one_iff.mp (show ps.length = 1 by omega)
    rw [hsame (by omega), ← hline.1]
    simp

end SentryCocoa.Library.Delimiter
