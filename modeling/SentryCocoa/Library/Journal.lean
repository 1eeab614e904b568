import Mathlib.Data.List.Basic
import Mathlib.Data.List.Perm.Subperm

/-! Journals of versioned updates. A key is opened by its update of version one,
continued by whoever holds it, and closed by the holder's last update. Holders
own distinct keys and know the version written last, which is what keeps the
updates of a key in order however the holders take turns. -/
namespace SentryCocoa.Library.Journal

/-- How updates are read. -/
structure Schema (υ κ : Type*) where
  key : υ → κ
  version : υ → ℕ
  opening : υ → Prop
  closing : υ → Prop

namespace Schema
variable {υ κ : Type*} (S : Schema υ κ)

/-- What the updates of one key look like, in the order in which they were written. -/
structure Lawful (updates : List υ) : Prop where
  increasing : updates.Pairwise fun u v => S.version u < S.version v
  opening_iff : ∀ u ∈ updates, S.opening u ↔ S.version u = 1
  opened : ∀ u rest, updates = u :: rest → S.opening u
  closed : updates.Pairwise fun u _ => ¬ S.closing u

theorem Lawful.nil : S.Lawful [] where
  increasing := .nil
  opening_iff _ hu := by simp at hu
  opened _ _ h := by simp at h
  closed := .nil

variable {S}

theorem Lawful.singleton {u : υ} (version : S.version u = 1) (opening : S.opening u) :
    S.Lawful [u] where
  increasing := List.pairwise_singleton _ _
  opening_iff v hv := by
    obtain rfl := List.mem_singleton.mp hv
    exact ⟨fun _ => version, fun _ => opening⟩
  opened v rest h := by
    obtain ⟨rfl, -⟩ := List.cons.inj h
    exact opening
  closed := List.pairwise_singleton _ _

theorem Lawful.version_pos {updates : List υ} (h : S.Lawful updates) {u : υ} (hu : u ∈ updates) :
    0 < S.version u := by
  cases updates with
  | nil => simp at hu
  | cons first rest =>
    have hfirst : S.version first = 1 :=
      (h.opening_iff first List.mem_cons_self).mp (h.opened first rest rfl)
    rcases List.mem_cons.mp hu with rfl | hrest
    · omega
    · have := List.rel_of_pairwise_cons h.increasing hrest
      omega

/-- Only the first update of a key opens it. -/
theorem Lawful.not_opening {first : υ} {rest : List υ} (h : S.Lawful (first :: rest)) {u : υ}
    (hu : u ∈ rest) : ¬ S.opening u := by
  intro hopening
  have hfirst := (h.opening_iff first List.mem_cons_self).mp (h.opened first rest rfl)
  have hversion := (h.opening_iff u (List.mem_cons_of_mem first hu)).mp hopening
  have := List.rel_of_pairwise_cons h.increasing hu
  omega

/-- Nothing follows a closing update. -/
theorem Lawful.closing_last {before after : List υ} {u : υ} (h : S.Lawful (before ++ u :: after))
    (closing : S.closing u) : after = [] := by
  cases after with
  | nil => rfl
  | cons v rest =>
    have htail := (List.pairwise_append.mp h.closed).2.1
    exact absurd closing (List.rel_of_pairwise_cons htail List.mem_cons_self)

/-- At most one update closes the key. -/
theorem Lawful.length_closing {updates seen : List υ} (h : S.Lawful updates)
    (sub : seen.Sublist updates) (closing : ∀ u ∈ seen, S.closing u) : seen.length ≤ 1 := by
  cases seen with
  | nil => exact Nat.zero_le 1
  | cons first rest =>
    cases rest with
    | nil => exact Nat.le_refl 1
    | cons second others =>
      have hnot := List.rel_of_pairwise_cons (h.closed.sublist sub) List.mem_cons_self
      exact absurd (closing first List.mem_cons_self) hnot

/-- A reader that misses updates, but not the opening one, still sees a lawful history. -/
theorem Lawful.sublist {updates seen : List υ} (h : S.Lawful updates) (sub : seen.Sublist updates)
    (opened : ∀ u rest, seen = u :: rest → S.opening u) : S.Lawful seen where
  increasing := h.increasing.sublist sub
  opening_iff u hu := h.opening_iff u (sub.subset hu)
  opened := opened
  closed := h.closed.sublist sub

/-- Write the next version behind an update that did not close the key. -/
theorem Lawful.concat {before : List υ} {u v : υ} (h : S.Lawful (before ++ [u]))
    (unclosed : ¬ S.closing u) (version : S.version v = S.version u + 1) (later : ¬ S.opening v) :
    S.Lawful (before ++ [u] ++ [v]) where
  increasing := by
    rw [List.pairwise_append]
    refine ⟨h.increasing, List.pairwise_singleton _ _, fun a ha b hb => ?_⟩
    obtain rfl := List.mem_singleton.mp hb
    rcases List.mem_append.mp ha with hbefore | hlast
    · have := (List.pairwise_append.mp h.increasing).2.2 a hbefore u (List.mem_singleton_self u)
      omega
    · obtain rfl := List.mem_singleton.mp hlast
      omega
  opening_iff a ha := by
    rcases List.mem_append.mp ha with hbefore | hlast
    · exact h.opening_iff a hbefore
    · obtain rfl := List.mem_singleton.mp hlast
      have hpos := h.version_pos (List.mem_append_right before (List.mem_singleton_self u))
      exact ⟨fun hopening => absurd hopening later, fun hone => by omega⟩
  opened a rest hcons := by
    cases before with
    | nil => exact (List.cons.inj hcons).1 ▸ h.opened u [] rfl
    | cons first others =>
      exact (List.cons.inj hcons).1 ▸ h.opened first (others ++ [u]) rfl
  closed := by
    rw [List.pairwise_append]
    refine ⟨h.closed, List.pairwise_singleton _ _, fun a ha _ _ => ?_⟩
    rcases List.mem_append.mp ha with hbefore | hlast
    · exact (List.pairwise_append.mp h.closed).2.2 a hbefore u (List.mem_singleton_self u)
    · obtain rfl := List.mem_singleton.mp hlast
      exact unclosed

variable [DecidableEq κ]

variable (S) in
/-- The updates of one key. -/
def updatesOf (k : κ) (journal : List υ) : List υ := journal.filter fun u => S.key u = k

theorem updatesOf_concat_self (journal : List υ) (u : υ) :
    S.updatesOf (S.key u) (journal ++ [u]) = S.updatesOf (S.key u) journal ++ [u] := by
  simp [updatesOf, List.filter_append]

theorem updatesOf_concat_other (journal : List υ) {u : υ} {k : κ} (h : S.key u ≠ k) :
    S.updatesOf k (journal ++ [u]) = S.updatesOf k journal := by
  simp [updatesOf, List.filter_append, h]

variable (S) in
/-- The holder of a key knows that the key is open and which version was written last. -/
def OpenAt (journal : List υ) (holder : κ × ℕ) : Prop :=
  ∃ before u, S.updatesOf holder.1 journal = before ++ [u] ∧ S.version u = holder.2 ∧ ¬ S.closing u

variable (S) in
structure Held (journal : List υ) (holders : List (κ × ℕ)) : Prop where
  lawful : ∀ k, S.Lawful (S.updatesOf k journal)
  nodup : (holders.map Prod.fst).Nodup
  openAt : ∀ holder ∈ holders, S.OpenAt journal holder

theorem Held.nil : S.Held [] [] where
  lawful _ := .nil S
  nodup := List.nodup_nil
  openAt _ h := by simp at h

theorem OpenAt.concat_other {journal : List υ} {holder : κ × ℕ} (h : S.OpenAt journal holder)
    {u : υ} (hkey : S.key u ≠ holder.1) : S.OpenAt (journal ++ [u]) holder := by
  unfold OpenAt
  rw [updatesOf_concat_other journal hkey]
  exact h

theorem Held.mem {journal : List υ} {holders : List (κ × ℕ)} (h : S.Held journal holders) {k : κ}
    {n : ℕ} (hmem : (k, n) ∈ holders) : ∃ u ∈ journal, S.key u = k := by
  obtain ⟨before, u, hbefore, -⟩ := h.openAt _ hmem
  have hu : u ∈ S.updatesOf k journal := by
    rw [show S.updatesOf k journal = before ++ [u] from hbefore]
    exact List.mem_append_right before (List.mem_singleton_self u)
  obtain ⟨hjournal, hkey⟩ := List.mem_filter.mp hu
  exact ⟨u, hjournal, of_decide_eq_true hkey⟩

/-- Holders may be reordered and may lose their hold. -/
theorem Held.mono {journal : List υ} {holders holders' : List (κ × ℕ)} (h : S.Held journal holders)
    (sub : holders'.Subperm holders) : S.Held journal holders' where
  lawful := h.lawful
  nodup := by
    obtain ⟨l, hperm, hsub⟩ := sub
    exact (hperm.map Prod.fst).nodup_iff.mp (h.nodup.sublist (hsub.map Prod.fst))
  openAt holder hmem := h.openAt holder (sub.subset hmem)

/-- A fresh key is opened by its first holder. -/
theorem Held.begin {journal : List υ} {holders : List (κ × ℕ)} (h : S.Held journal holders) {u : υ}
    (fresh : ∀ v ∈ journal, S.key v ≠ S.key u) (version : S.version u = 1)
    (opening : S.opening u) (unclosed : ¬ S.closing u) :
    S.Held (journal ++ [u]) ((S.key u, 1) :: holders) := by
  have hnone : S.updatesOf (S.key u) journal = [] := by
    apply List.filter_eq_nil_iff.mpr
    intro v hv
    simpa using fresh v hv
  have hother : ∀ holder ∈ holders, S.key u ≠ holder.1 := by
    intro holder hmem heq
    obtain ⟨before, v, hbefore, -⟩ := h.openAt holder hmem
    rw [← heq, hnone] at hbefore
    exact absurd hbefore.symm (by simp)
  refine ⟨fun k => ?_, ?_, ?_⟩
  · by_cases hk : S.key u = k
    · subst hk
      rw [updatesOf_concat_self, hnone]
      exact .singleton version opening
    · rw [updatesOf_concat_other journal hk]
      exact h.lawful k
  · rw [List.map_cons, List.nodup_cons]
    refine ⟨fun hmem => ?_, h.nodup⟩
    obtain ⟨holder, hholder, heq⟩ := List.mem_map.mp hmem
    exact hother holder hholder heq.symm
  · intro holder hmem
    rcases List.mem_cons.mp hmem with rfl | hrest
    · exact ⟨[], u, by rw [updatesOf_concat_self, hnone], version, unclosed⟩
    · exact (h.openAt holder hrest).concat_other (hother holder hrest)

/-- The holder writes the next version: the order is kept, and the other holders still hold. -/
theorem Held.write {journal : List υ} {holders : List (κ × ℕ)} {u : υ} {n : ℕ}
    (h : S.Held journal ((S.key u, n) :: holders)) (version : S.version u = n + 1)
    (later : ¬ S.opening u) : S.Held (journal ++ [u]) holders := by
  obtain ⟨before, v, hbefore, hversion, hclosing⟩ := h.openAt _ List.mem_cons_self
  have hnodup := List.nodup_cons.mp h.nodup
  refine ⟨fun k => ?_, hnodup.2, fun holder hmem => ?_⟩
  · by_cases hk : S.key u = k
    · subst hk
      rw [updatesOf_concat_self, hbefore]
      exact (hbefore ▸ h.lawful (S.key u)).concat hclosing (by rw [version, hversion]) later
    · rw [updatesOf_concat_other journal hk]
      exact h.lawful k
  · refine (h.openAt holder (List.mem_cons_of_mem _ hmem)).concat_other fun heq => ?_
    exact hnodup.1 (List.mem_map.mpr ⟨holder, hmem, heq.symm⟩)

/-- The holder writes the next version and holds on. -/
theorem Held.extend {journal : List υ} {holders : List (κ × ℕ)} {u : υ} {n : ℕ}
    (h : S.Held journal ((S.key u, n) :: holders)) (version : S.version u = n + 1)
    (later : ¬ S.opening u) (unclosed : ¬ S.closing u) :
    S.Held (journal ++ [u]) ((S.key u, n + 1) :: holders) := by
  have hrest := h.write version later
  refine ⟨hrest.lawful, h.nodup, fun holder hmem => ?_⟩
  rcases List.mem_cons.mp hmem with rfl | hmem
  · exact ⟨S.updatesOf (S.key u) journal, u, updatesOf_concat_self journal u, version, unclosed⟩
  · exact hrest.openAt holder hmem

end Schema

end SentryCocoa.Library.Journal
