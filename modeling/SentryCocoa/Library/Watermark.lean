import Mathlib.Data.List.AList
import Mathlib.Order.Bounds.Image
import Mathlib.Order.Lattice
import Mathlib.Order.Preorder.Finite

/-! Marks that only rise: a map from keys to levels in which a key keeps the highest
level it was ever raised to. What is above a mark, and so covered by it, is what some
level is above of. -/
namespace SentryCocoa.Library.Watermark

variable {κ δ : Type*} [DecidableEq κ] [LinearOrder δ]

abbrev Marks (κ δ : Type*) := AList fun _ : κ => δ

namespace Marks

def raise (marks : Marks κ δ) (key : κ) (level : δ) : Marks κ δ :=
  marks.insert key ((marks.lookup key).elim level (max · level))

def raiseAll (marks : Marks κ δ) (levels : List (κ × δ)) : Marks κ δ :=
  levels.foldl (fun marks entry => marks.raise entry.1 entry.2) marks

/-- The mark of the key is higher than the level. -/
def Covers (marks : Marks κ δ) (key : κ) (level : δ) : Prop :=
  ∃ mark ∈ marks.lookup key, level < mark

@[simp] theorem not_covers_empty (key : κ) (level : δ) :
    ¬ (∅ : Marks κ δ).Covers key level := by
  rintro ⟨mark, hmark, -⟩
  cases hmark

theorem covers_raise (marks : Marks κ δ) (key key' : κ) (level level' : δ) :
    (marks.raise key level).Covers key' level' ↔
      (key = key' ∧ level' < level) ∨ marks.Covers key' level' := by
  unfold raise Covers
  by_cases heq : key' = key
  · subst heq
    rw [AList.lookup_insert]
    cases marks.lookup key' with
    | none => simp
    | some mark => simp [or_comm]
  · rw [AList.lookup_insert_ne heq]
    simp [Ne.symm heq]

theorem covers_raiseAll (marks : Marks κ δ) (levels : List (κ × δ)) (key : κ) (level : δ) :
    (marks.raiseAll levels).Covers key level ↔
      (∃ entry ∈ levels, entry.1 = key ∧ level < entry.2) ∨ marks.Covers key level := by
  induction levels generalizing marks with
  | nil => simp [raiseAll]
  | cons entry levels ih =>
    change ((marks.raise entry.1 entry.2).raiseAll levels).Covers key level ↔ _
    rw [ih, covers_raise, List.exists_mem_cons_iff]
    exact or_left_comm.trans or_assoc.symm

theorem raiseAll_append (marks : Marks κ δ) (first second : List (κ × δ)) :
    marks.raiseAll (first ++ second) = (marks.raiseAll first).raiseAll second :=
  List.foldl_append

/-- What the entries of a map cover. -/
theorem exists_entries_iff (marks : Marks κ δ) (key : κ) (level : δ) :
    (∃ entry ∈ marks.entries, entry.1 = key ∧ level < entry.2) ↔ marks.Covers key level := by
  unfold Covers
  constructor
  · rintro ⟨⟨_, mark⟩, hentry, rfl, hlevel⟩
    exact ⟨mark, AList.mem_lookup_iff.mpr hentry, hlevel⟩
  · rintro ⟨mark, hmark, hlevel⟩
    exact ⟨⟨key, mark⟩, AList.mem_lookup_iff.mp hmark, rfl, hlevel⟩

theorem lookup_raise (marks : Marks κ δ) (key key' : κ) (level : δ) :
    (marks.raise key level).lookup key' =
      if key = key' then some ((marks.lookup key).elim level (max · level))
      else marks.lookup key' := by
  unfold raise
  split
  · next h => rw [← h, AList.lookup_insert]
  · next h => rw [AList.lookup_insert_ne (Ne.symm h)]

/-- A mark that is the greatest level, and no mark where there is no level. -/
def Tops (mark : Option δ) (levels : Set δ) : Prop :=
  match mark with
  | none => levels = ∅
  | some mark => IsGreatest levels mark

omit [DecidableEq κ] in
theorem tops_insert {mark : Option δ} {levels : Set δ} (h : Tops mark levels) (level : δ) :
    Tops (some (mark.elim level (max · level))) (insert level levels) := by
  cases mark with
  | none =>
    have hempty : levels = ∅ := h
    simp [Tops, hempty]
  | some mark =>
    have hgreatest : IsGreatest levels mark := h
    rw [Option.elim_some, max_comm]
    exact hgreatest.insert level

theorem tops_lookup_raiseAll (levels : List (κ × δ)) (key : κ) :
    Tops (((∅ : Marks κ δ).raiseAll levels).lookup key) {level | (key, level) ∈ levels} := by
  induction levels using List.reverseRecOn with
  | nil =>
    simp [Tops, raiseAll]
  | append_singleton levels entry ih =>
    obtain ⟨key', level'⟩ := entry
    rw [raiseAll_append]
    change Tops (((raiseAll ∅ levels).raise key' level').lookup key) _
    rw [lookup_raise]
    by_cases h : key' = key
    · subst h
      have hset : {level | (key', level) ∈ levels ++ [(key', level')]} =
          insert level' {level | (key', level) ∈ levels} := by
        ext level
        simp [or_comm]
      rw [if_pos rfl, hset]
      exact tops_insert ih level'
    · have hset : {level | (key, level) ∈ levels ++ [(key', level')]} =
          {level | (key, level) ∈ levels} := by
        ext level
        simp [Ne.symm h]
      rw [if_neg h, hset]
      exact ih

/-- A key is marked with the greatest of its levels. -/
theorem lookup_raiseAll_eq_some_iff (levels : List (κ × δ)) (key : κ) (mark : δ) :
    ((∅ : Marks κ δ).raiseAll levels).lookup key = some mark ↔
      IsGreatest {level | (key, level) ∈ levels} mark := by
  have htops := tops_lookup_raiseAll levels key
  cases hlookup : ((∅ : Marks κ δ).raiseAll levels).lookup key with
  | none =>
    rw [hlookup] at htops
    have hempty : {level | (key, level) ∈ levels} = ∅ := htops
    simp [hempty, IsGreatest]
  | some mark' =>
    rw [hlookup] at htops
    have hgreatest : IsGreatest {level | (key, level) ∈ levels} mark' := htops
    rw [Option.some.injEq]
    constructor
    · intro heq
      rwa [← heq]
    · intro h
      exact hgreatest.unique h

end Marks

/-! The greatest of finitely many levels. -/


theorem exists_isGreatest_ge {levels : Set δ} (h : levels.Finite) {level : δ}
    (hlevel : level ∈ levels) : ∃ mark, level ≤ mark ∧ IsGreatest levels mark := by
  obtain ⟨mark, hle, hmaximal⟩ := h.exists_le_maximal hlevel
  refine ⟨mark, hle, hmaximal.prop, ?_⟩
  intro other hother
  by_contra hlt
  exact hlt (hmaximal.le_of_ge hother (not_le.mp hlt).le)

/-- The greatest levels are the same exactly when no set has a level above the other. -/
theorem isGreatest_congr_iff {levels levels' : Set δ} (h : levels.Finite) (h' : levels'.Finite) :
    (∀ mark, IsGreatest levels mark ↔ IsGreatest levels' mark) ↔
      (∀ level ∈ levels, ∃ level' ∈ levels', level ≤ level') ∧
        ∀ level' ∈ levels', ∃ level ∈ levels, level' ≤ level := by
  constructor
  · intro hiff
    constructor
    · intro level hlevel
      obtain ⟨mark, hle, hmark⟩ := exists_isGreatest_ge h hlevel
      exact ⟨mark, ((hiff mark).mp hmark).1, hle⟩
    · intro level' hlevel'
      obtain ⟨mark, hle, hmark⟩ := exists_isGreatest_ge h' hlevel'
      exact ⟨mark, ((hiff mark).mpr hmark).1, hle⟩
  · rintro ⟨hbelow, habove⟩
    have hbounds : upperBounds levels = upperBounds levels' := by
      ext bound
      constructor
      · intro hbound level' hlevel'
        obtain ⟨level, hlevel, hle⟩ := habove level' hlevel'
        exact hle.trans (hbound hlevel)
      · intro hbound level hlevel
        obtain ⟨level', hlevel', hle⟩ := hbelow level hlevel
        exact hle.trans (hbound hlevel')
    intro mark
    constructor
    · rintro ⟨hmem, hbound⟩
      rw [hbounds] at hbound
      obtain ⟨level', hlevel', hle⟩ := hbelow mark hmem
      rw [le_antisymm hle (hbound hlevel')]
      exact ⟨hlevel', le_antisymm hle (hbound hlevel') ▸ hbound⟩
    · rintro ⟨hmem, hbound⟩
      rw [← hbounds] at hbound
      obtain ⟨level, hlevel, hle⟩ := habove mark hmem
      rw [le_antisymm hle (hbound hlevel)]
      exact ⟨hlevel, le_antisymm hle (hbound hlevel) ▸ hbound⟩

/-- The greatest level of a monotone image is the image of a greatest level. -/
theorem isGreatest_image_iff {ι : Type*} [LinearOrder ι] {f : ι → δ} (hf : Monotone f)
    {levels : Set ι} (h : levels.Finite) (mark : δ) :
    IsGreatest (f '' levels) mark ↔ ∃ level, IsGreatest levels level ∧ mark = f level := by
  constructor
  · rintro ⟨⟨level, hlevel, rfl⟩, hbound⟩
    obtain ⟨greatest, hle, hgreatest⟩ := exists_isGreatest_ge h hlevel
    exact ⟨greatest, hgreatest,
      le_antisymm (hf hle) (hbound ⟨greatest, hgreatest.1, rfl⟩)⟩
  · rintro ⟨level, hlevel, rfl⟩
    exact hf.map_isGreatest hlevel

end SentryCocoa.Library.Watermark
