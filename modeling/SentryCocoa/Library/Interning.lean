import Mathlib.Data.List.AList

/-! Tables that keep each value once. A value is found by its key, and references to it are
indices into the list of values, which only grows. -/
namespace SentryCocoa.Library.Interning

variable {κ ν : Type*}

/-- The values at the indices; none when an index is outside of the list. -/
def resolve (values : List ν) : List ℕ → Option (List ν)
  | [] => some []
  | i :: rest => (values[i]?).bind fun v => (resolve values rest).map (v :: ·)

theorem resolve_cons_eq_some {values : List ν} {i : ℕ} {rest : List ℕ} {found : List ν} :
    resolve values (i :: rest) = some found ↔
      ∃ v vs, values[i]? = some v ∧ resolve values rest = some vs ∧ found = v :: vs := by
  rw [resolve]
  simp only [Option.bind_eq_some_iff, Option.map_eq_some_iff]
  constructor
  · rintro ⟨v, hv, vs, hvs, rfl⟩
    exact ⟨v, vs, hv, hvs, rfl⟩
  · rintro ⟨v, vs, hv, hvs, rfl⟩
    exact ⟨v, hv, vs, hvs, rfl⟩

theorem getElem?_of_prefix {values more : List ν} (h : values <+: more) {i : ℕ} {v : ν}
    (hv : values[i]? = some v) : more[i]? = some v := by
  obtain ⟨rest, rfl⟩ := h
  obtain ⟨hlt, -⟩ := List.getElem?_eq_some_iff.mp hv
  rw [List.getElem?_append_left hlt]
  exact hv

/-- What an index refers to stays the same while the list grows. -/
theorem resolve_of_prefix {values more : List ν} (h : values <+: more) {indices : List ℕ}
    {found : List ν} (hfound : resolve values indices = some found) :
    resolve more indices = some found := by
  induction indices generalizing found with
  | nil => exact hfound
  | cons i rest ih =>
    obtain ⟨v, vs, hv, hvs, rfl⟩ := resolve_cons_eq_some.mp hfound
    exact resolve_cons_eq_some.mpr ⟨v, vs, getElem?_of_prefix h hv, ih hvs, rfl⟩

theorem lt_length_of_resolve {values : List ν} {indices : List ℕ} {found : List ν}
    (hfound : resolve values indices = some found) : ∀ i ∈ indices, i < values.length := by
  induction indices generalizing found with
  | nil => exact List.forall_mem_nil _
  | cons i rest ih =>
    obtain ⟨v, vs, hv, hvs, -⟩ := resolve_cons_eq_some.mp hfound
    obtain ⟨hlt, -⟩ := List.getElem?_eq_some_iff.mp hv
    exact List.forall_mem_cons.mpr ⟨hlt, ih hvs⟩

variable [DecidableEq κ]

structure Table (key : ν → κ) where
  values : List ν
  index : AList fun _ : κ => ℕ
  sound : ∀ k i, index.lookup k = some i → ∃ v, values[i]? = some v ∧ key v = k

namespace Table
variable {key : ν → κ} (table : Table key)

def empty : Table key := ⟨[], ∅, fun _ _ h => by cases h⟩

/-- The index of the value; the value is added when its key is new. -/
def intern (value : ν) : Table key × ℕ :=
  match table.index.lookup (key value) with
  | some i => (table, i)
  | none => (
    { values := table.values ++ [value]
      index := table.index.insert (key value) table.values.length
      sound := by
        intro k i hi
        by_cases hk : k = key value
        · rw [hk, AList.lookup_insert] at hi
          cases hi
          exact ⟨value, by simp, hk.symm⟩
        · rw [AList.lookup_insert_ne hk] at hi
          obtain ⟨v, hv, hkey⟩ := table.sound k i hi
          exact ⟨v, getElem?_of_prefix (List.prefix_append _ _) hv, hkey⟩ },
    table.values.length)

def internAll : Table key → List ν → Table key × List ℕ
  | table, [] => (table, [])
  | table, value :: rest =>
    let interned := table.intern value
    let others := interned.1.internAll rest
    (others.1, interned.2 :: others.2)

theorem prefix_intern (value : ν) : table.values <+: (table.intern value).1.values := by
  unfold intern
  split
  · exact List.prefix_rfl
  · exact List.prefix_append _ _

/-- The index refers to the value when no other value has its key. -/
theorem getElem?_intern (hkey : Function.Injective key) (value : ν) :
    (table.intern value).1.values[(table.intern value).2]? = some value := by
  unfold intern
  split
  · rename_i i hi
    obtain ⟨v, hv, hsame⟩ := table.sound _ i hi
    rw [hkey hsame] at hv
    exact hv
  · exact List.getElem?_concat_length

theorem prefix_internAll (values : List ν) :
    table.values <+: (table.internAll values).1.values := by
  induction values generalizing table with
  | nil => exact List.prefix_rfl
  | cons value rest ih => exact (table.prefix_intern value).trans (ih _)

theorem resolve_internAll (hkey : Function.Injective key) (values : List ν) :
    resolve (table.internAll values).1.values (table.internAll values).2 = some values := by
  induction values generalizing table with
  | nil => rfl
  | cons value rest ih =>
    have hfirst := getElem?_of_prefix ((table.intern value).1.prefix_internAll rest)
      (table.getElem?_intern hkey value)
    exact resolve_cons_eq_some.mpr ⟨value, rest, hfirst, ih _, rfl⟩

/-- Every value is found by its key. -/
def Complete : Prop := ∀ i v, table.values[i]? = some v → table.index.lookup (key v) = some i

variable {table}

theorem complete_empty : (empty : Table key).Complete := by
  intro i v h
  cases h

theorem Complete.intern (h : table.Complete) (value : ν) : (table.intern value).1.Complete := by
  unfold Table.intern
  split
  · exact h
  · rename_i hnew
    intro i v hv
    dsimp only at hv ⊢
    rcases Nat.lt_or_ge i table.values.length with hlt | hge
    · rw [List.getElem?_append_left hlt] at hv
      have hold := h i v hv
      rw [AList.lookup_insert_ne]
      · exact hold
      · intro hsame
        rw [hsame, hnew] at hold
        cases hold
    · rw [List.getElem?_append_right hge, List.getElem?_singleton] at hv
      split at hv
      · cases hv
        rw [AList.lookup_insert, show i = table.values.length by omega]
      · cases hv

theorem Complete.internAll (h : table.Complete) (values : List ν) :
    (table.internAll values).1.Complete := by
  induction values generalizing table with
  | nil => exact h
  | cons value rest ih => exact ih (h.intern value)

/-- No value is there twice. -/
theorem Complete.nodup (h : table.Complete) : table.values.Nodup := by
  rw [List.nodup_iff_injective_getElem]
  intro i j hij
  have hi := h i _ (List.getElem?_eq_getElem i.isLt)
  have hj := h j _ (List.getElem?_eq_getElem j.isLt)
  dsimp only at hij
  rw [hij, hj] at hi
  exact Fin.ext (Option.some.inj hi).symm

/-- What is added is the new value, if anything. -/
theorem mem_intern {value v : ν} (h : v ∈ (table.intern value).1.values) :
    v ∈ table.values ∨ v = value := by
  unfold Table.intern at h
  split at h
  · exact Or.inl h
  · rw [List.mem_append, List.mem_singleton] at h
    exact h

end Table

end SentryCocoa.Library.Interning
