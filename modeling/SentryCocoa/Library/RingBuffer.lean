import Mathlib.Data.List.DropRight
import Mathlib.Logic.Function.Basic

/-! A ring of `m` slots that is written at one position and read by walking
all slots from that position on. The contents are the last `m` values written,
oldest first, whether or not the ring has wrapped around. -/
namespace SentryCocoa.Library.RingBuffer

variable {α β : Type*}

structure CyclicBuffer (α : Type*) where
  slots : Nat → Option α
  next : Nat

def CyclicBuffer.empty : CyclicBuffer α := ⟨fun _ => none, 0⟩

def CyclicBuffer.push (m : Nat) (r : CyclicBuffer α) (a : α) : CyclicBuffer α :=
  ⟨Function.update r.slots r.next (some a), (r.next + 1) % m⟩

/-- Walk `m` slots, starting at the one that is written next, and skip the empty ones. -/
def CyclicBuffer.read (m : Nat) (r : CyclicBuffer α) : List α :=
  (List.range m).filterMap fun i => r.slots ((r.next + i) % m)

def CyclicBuffer.map (f : α → β) (r : CyclicBuffer α) : CyclicBuffer β := ⟨fun i => (r.slots i).map f, r.next⟩

/-- Reading depends on the first `m` slots and on the position modulo `m` only. -/
theorem CyclicBuffer.read_congr {m : Nat} {r r' : CyclicBuffer α} (hslots : ∀ i < m, r.slots i = r'.slots i)
    (hnext : r.next % m = r'.next % m) : r.read m = r'.read m := by
  apply List.filterMap_congr
  intro i hi
  have hm : 0 < m := Nat.lt_of_le_of_lt (Nat.zero_le i) (List.mem_range.mp hi)
  rw [hslots _ (Nat.mod_lt _ hm), Nat.add_mod, hnext, ← Nat.add_mod]

/-- Slots fill up from the front, so an empty slot lies at or after the next position. -/
structure CyclicBuffer.Filling (m : Nat) (r : CyclicBuffer α) : Prop where
  next_lt : r.next < m
  slots : (∀ i < m, (r.slots i).isSome) ∨ ∀ i < m, (r.slots i).isSome ↔ i < r.next

/-- The values behind the one that the next write replaces. -/
def CyclicBuffer.older (m : Nat) (r : CyclicBuffer α) : List α :=
  (List.range (m - 1)).filterMap fun i => r.slots ((r.next + (i + 1)) % m)

theorem CyclicBuffer.read_eq_older (m : Nat) (r : CyclicBuffer α) (h : r.next < m) :
    r.read m = (r.slots r.next).toList ++ r.older m := by
  obtain ⟨k, rfl⟩ : ∃ k, m = k + 1 := ⟨m - 1, by omega⟩
  rw [read, List.range_succ_eq_map, List.filterMap_cons, List.filterMap_map]
  simp only [Nat.add_zero, Nat.mod_eq_of_lt h, older, Nat.add_sub_cancel]
  cases hslot : r.slots r.next with
  | none => rfl
  | some a => rfl

theorem CyclicBuffer.read_push (m : Nat) (r : CyclicBuffer α) (a : α) (h : r.next < m) :
    (r.push m a).read m = r.older m ++ [a] := by
  obtain ⟨k, rfl⟩ : ∃ k, m = k + 1 := ⟨m - 1, by omega⟩
  have hlast : ((r.next + 1) % (k + 1) + k) % (k + 1) = r.next := by
    rw [Nat.mod_add_mod, show r.next + 1 + k = r.next + (k + 1) by omega, Nat.add_mod_right,
      Nat.mod_eq_of_lt h]
  rw [read, List.range_succ, List.filterMap_append]
  congr 1
  · apply List.filterMap_congr
    intro i hi
    have hik : i < k := List.mem_range.mp hi
    have hpos : ((r.next + 1) % (k + 1) + i) % (k + 1) = (r.next + (i + 1)) % (k + 1) := by
      rw [Nat.mod_add_mod]
      congr 1
      omega
    have hne : (r.next + (i + 1)) % (k + 1) ≠ r.next := by
      intro heq
      by_cases hwrap : r.next + (i + 1) < k + 1
      · rw [Nat.mod_eq_of_lt hwrap] at heq
        omega
      · rw [Nat.mod_eq_sub_mod (by omega), Nat.mod_eq_of_lt (by omega)] at heq
        omega
    simp only [push, hpos, Function.update_of_ne hne]
  · simp only [push, List.filterMap_cons, List.filterMap_nil, hlast, Function.update_self]

theorem CyclicBuffer.older_length_of_full (m : Nat) (r : CyclicBuffer α) (h : ∀ i < m, (r.slots i).isSome) :
    (r.older m).length = m - 1 := by
  by_cases hm : m = 0
  · simp [older, hm]
  · have hall : ∀ i ∈ List.range (m - 1),
        (r.slots ((r.next + (i + 1)) % m)).isSome := fun i _ => h _ (Nat.mod_lt _ (by omega))
    rw [older, List.filterMap_length_eq_length.mpr hall, List.length_range]

theorem CyclicBuffer.older_length_le (m : Nat) (r : CyclicBuffer α) : (r.older m).length ≤ m - 1 := by
  simpa [older] using List.length_filterMap_le
    (fun i => r.slots ((r.next + (i + 1)) % m)) (List.range (m - 1))

theorem rtake_of_length_le {n : Nat} {l : List α} (h : l.length ≤ n) : l.rtake n = l := by
  rw [List.rtake, Nat.sub_eq_zero_of_le h, List.drop_zero]

/-- Keeping the last `n` of a list loses nothing that the last `n` of an extension needs. -/
theorem rtake_append_rtake (n : Nat) (l : List α) (a : α) :
    (l.rtake n ++ [a]).rtake n = (l ++ [a]).rtake n := by
  cases n with
  | zero => simp
  | succ k =>
    rw [List.rtake_concat_succ, List.rtake_concat_succ]
    congr 1
    simp only [List.rtake, List.drop_drop, List.length_drop]
    congr 1
    omega

theorem CyclicBuffer.Filling.empty {m : Nat} (h : 0 < m) : (CyclicBuffer.empty : CyclicBuffer α).Filling m :=
  ⟨h, .inr fun i _ => by simp [CyclicBuffer.empty]⟩

theorem CyclicBuffer.Filling.push {m : Nat} {r : CyclicBuffer α} (h : r.Filling m) (a : α) :
    (r.push m a).Filling m := by
  have hm := h.next_lt
  refine ⟨Nat.mod_lt _ (by omega), ?_⟩
  have hslot : ∀ i, ((r.push m a).slots i).isSome ↔ i = r.next ∨ (r.slots i).isSome := by
    intro i
    by_cases hi : i = r.next <;> simp [CyclicBuffer.push, hi]
  rcases h.slots with hfull | hpart
  · exact .inl fun i hi => (hslot i).mpr (.inr (hfull i hi))
  · by_cases hend : r.next + 1 = m
    · refine .inl fun i hi => (hslot i).mpr ?_
      by_cases hi' : i = r.next
      · exact .inl hi'
      · exact .inr ((hpart i hi).mpr (by omega))
    · refine .inr fun i hi => ?_
      have hnext : (r.push m a).next = r.next + 1 := Nat.mod_eq_of_lt (by omega)
      rw [hslot, hpart i hi, hnext]
      omega

/-- Writing appends to the contents and drops what no longer fits. -/
theorem CyclicBuffer.read_push_of_filling {m : Nat} {r : CyclicBuffer α} (h : r.Filling m) (a : α) :
    (r.push m a).read m = (r.read m ++ [a]).rtake m := by
  have hm := h.next_lt
  rw [read_push m r a hm, read_eq_older m r hm]
  cases hslot : r.slots r.next with
  | none =>
    have hle := r.older_length_le m
    rw [rtake_of_length_le (by simp; omega)]
    rfl
  | some b =>
    have hfull : ∀ i < m, (r.slots i).isSome := by
      rcases h.slots with hfull | hpart
      · exact hfull
      · have := (hpart r.next hm).mp (by simp [hslot])
        omega
    have hlen := r.older_length_of_full m hfull
    obtain ⟨k, rfl⟩ : ∃ k, m = k + 1 := ⟨m - 1, by omega⟩
    rw [List.rtake_concat_succ]
    simp [List.rtake, hlen]

@[simp] theorem CyclicBuffer.read_empty (m : Nat) : (CyclicBuffer.empty : CyclicBuffer α).read m = [] := by
  simp [read, CyclicBuffer.empty]

theorem CyclicBuffer.read_map (f : α → β) (m : Nat) (r : CyclicBuffer α) : (r.map f).read m = (r.read m).map f := by
  simp only [read, CyclicBuffer.map, List.map_filterMap]

theorem CyclicBuffer.map_push (f : α → β) (m : Nat) (r : CyclicBuffer α) (a : α) :
    (r.push m a).map f = (r.map f).push m (f a) := by
  simp only [CyclicBuffer.map, push, CyclicBuffer.mk.injEq, and_true]
  funext i
  by_cases hi : i = r.next <;> simp [hi]

/-- A list laid out from the first slot on, with the next position behind it. -/
def CyclicBuffer.ofList (l : List α) : CyclicBuffer α := ⟨fun i => l[i]?, l.length⟩

theorem CyclicBuffer.Filling.ofList {m : Nat} {l : List α} (h : l.length < m) :
    (CyclicBuffer.ofList l).Filling m :=
  ⟨h, .inr fun i _ => by simp [CyclicBuffer.ofList]⟩

theorem CyclicBuffer.slots_ofList_append (l : List α) (a : α) :
    (CyclicBuffer.ofList (l ++ [a])).slots = Function.update (CyclicBuffer.ofList l).slots l.length (some a) := by
  funext i
  rcases Nat.lt_trichotomy i l.length with hlt | heq | hgt
  · rw [Function.update_of_ne (by omega)]
    exact List.getElem?_append_left hlt
  · subst heq
    simp [CyclicBuffer.ofList]
  · rw [Function.update_of_ne (by omega)]
    simp [CyclicBuffer.ofList, List.getElem?_eq_none (show (l ++ [a]).length ≤ i by simp; omega),
      List.getElem?_eq_none (show l.length ≤ i by omega)]

/-- A list that fits is read back, also when it fills every slot. -/
theorem CyclicBuffer.read_ofList {m : Nat} {l : List α} (h : l.length ≤ m) : (CyclicBuffer.ofList l).read m = l := by
  induction l using List.reverseRecOn with
  | nil => exact read_empty m
  | append_singleton l a ih =>
    have hlt : l.length < m := by
      rw [List.length_append, List.length_singleton] at h
      omega
    have hpush : (CyclicBuffer.ofList (l ++ [a])).read m = ((CyclicBuffer.ofList l).push m a).read m := by
      refine read_congr (fun i _ => ?_) ?_
      · rw [slots_ofList_append]
        rfl
      · simp [CyclicBuffer.ofList, CyclicBuffer.push]
    rw [hpush, read_push_of_filling (.ofList hlt), ih (by omega), rtake_of_length_le h]

end SentryCocoa.Library.RingBuffer
