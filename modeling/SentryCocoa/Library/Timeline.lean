import Mathlib.Data.List.Nodup
import Mathlib.Data.List.Pairwise
import Mathlib.Order.Basic
import Mathlib.Order.Defs.LinearOrder
import Mathlib.Order.Lattice

/-! Entries in the ascending order of their times, and lists that cover them. -/
namespace SentryCocoa.Library.Timeline

variable {α β τ : Type*} [LinearOrder τ] {time : α → τ}

def Ascending (time : α → τ) (entries : List α) : Prop :=
  entries.Pairwise fun entry later => time entry < time later

theorem Ascending.nodup {entries : List α} (h : Ascending time entries) : entries.Nodup :=
  List.Pairwise.imp (fun hlt heq => absurd (congrArg time heq) hlt.ne) h

theorem Ascending.concat {entries : List α} (h : Ascending time entries) {entry : α}
    (hlast : ∀ earlier ∈ entries, time earlier < time entry) :
    Ascending time (entries ++ [entry]) :=
  List.pairwise_append.mpr ⟨h, List.pairwise_singleton _ _, fun earlier hearlier _ hentry =>
    List.mem_singleton.mp hentry ▸ hlast earlier hearlier⟩

/-- To drop the entries before a date is to keep the others. -/
theorem Ascending.dropWhile_eq {entries : List α} (h : Ascending time entries) (date : τ) :
    entries.dropWhile (fun entry => time entry < date) =
      entries.filter fun entry => date ≤ time entry := by
  induction entries with
  | nil => rfl
  | cons entry rest ih =>
    have hrest := List.pairwise_cons.mp h
    by_cases hbefore : time entry < date
    · rw [List.dropWhile_cons_of_pos (by simpa using hbefore),
        List.filter_cons_of_neg (by simpa using hbefore), ih hrest.2]
    · rw [List.dropWhile_cons_of_neg (by simpa using hbefore), List.filter_eq_self.mpr]
      intro other hother
      rw [decide_eq_true_eq]
      rcases List.mem_cons.mp hother with rfl | hlater
      · exact not_lt.mp hbefore
      · exact (not_lt.mp hbefore).trans (hrest.1 other hlater).le

/-- A date splits the entries. -/
theorem Ascending.split {entries : List α} (h : Ascending time entries) (date : τ) :
    entries = (entries.filter fun entry => time entry < date) ++
      entries.filter fun entry => date ≤ time entry := by
  induction entries with
  | nil => rfl
  | cons entry rest ih =>
    have hrest := List.pairwise_cons.mp h
    by_cases hbefore : time entry < date
    · rw [List.filter_cons_of_pos (by simpa using hbefore),
        List.filter_cons_of_neg (by simpa using hbefore), List.cons_append, ← ih hrest.2]
    · have hlater : ∀ other ∈ entry :: rest, date ≤ time other := by
        intro other hother
        rcases List.mem_cons.mp hother with rfl | hother
        · exact not_lt.mp hbefore
        · exact (not_lt.mp hbefore).trans (hrest.1 other hother).le
      have hnone : (entry :: rest).filter (fun other => time other < date) = [] :=
        List.filter_eq_nil_iff.mpr fun other hother => by simpa using hlater other hother
      rw [hnone, List.nil_append, List.filter_eq_self.mpr]
      exact fun other hother => decide_eq_true (hlater other hother)

/-- An entry that parts without a common entry cover is in one of them. -/
theorem countP_mem_eq_one [DecidableEq α] {parts : List β} {entries : β → List α}
    (nodup : (parts.flatMap entries).Nodup) {entry : α} (h : entry ∈ parts.flatMap entries) :
    parts.countP (fun part => entry ∈ entries part) = 1 := by
  induction parts with
  | nil => cases h
  | cons part rest ih =>
    rw [List.flatMap_cons] at nodup h
    have hparts := List.nodup_append.mp nodup
    rcases List.mem_append.mp h with hhere | hrest
    · rw [List.countP_cons_of_pos (by simpa using hhere), List.countP_eq_zero.mpr]
      intro other hother hmem
      exact hparts.2.2 entry hhere entry
        (List.mem_flatMap.mpr ⟨other, hother, of_decide_eq_true hmem⟩) rfl
    · rw [List.countP_cons_of_neg, ih hparts.2.1 hrest]
      intro hmem
      exact hparts.2.2 entry (of_decide_eq_true hmem) entry hrest rfl

end SentryCocoa.Library.Timeline
