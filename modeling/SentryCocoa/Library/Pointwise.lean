import Mathlib.Data.List.Nodup

/-! Loops whose iterations each change one entry of the state. -/
namespace SentryCocoa.Library.Pointwise

variable {σ ι α : Type*}

/-- An iteration changes its own entry, and that entry as the function says. -/
structure Local (read : σ → ι → α) (step : σ → ι → σ) (f : ι → α → α) : Prop where
  self : ∀ s i, read (step s i) i = f i (read s i)
  other : ∀ s i j, j ≠ i → read (step s i) j = read s j

variable {read : σ → ι → α} {step : σ → ι → σ} {f : ι → α → α}

theorem read_foldl_of_notMem (h : Local read step f) {entries : List ι} {j : ι}
    (hj : j ∉ entries) (s : σ) : read (entries.foldl step s) j = read s j := by
  induction entries generalizing s with
  | nil => rfl
  | cons i rest ih =>
    rw [List.mem_cons, not_or] at hj
    rw [List.foldl_cons, ih hj.2]
    exact h.other s i j hj.1

/-- The loop over different entries changes each of them once. -/
theorem read_foldl_of_mem (h : Local read step f) {entries : List ι} (hnodup : entries.Nodup)
    {j : ι} (hj : j ∈ entries) (s : σ) : read (entries.foldl step s) j = f j (read s j) := by
  induction entries generalizing s with
  | nil => cases hj
  | cons i rest ih =>
    rw [List.nodup_cons] at hnodup
    rw [List.foldl_cons]
    cases List.mem_cons.mp hj with
    | inl heq =>
      subst heq
      rw [read_foldl_of_notMem h hnodup.1]
      exact h.self s j
    | inr hrest =>
      have hne : j ≠ i := fun heq => hnodup.1 (heq ▸ hrest)
      rw [ih hnodup.2 hrest, h.other s i j hne]

end SentryCocoa.Library.Pointwise
