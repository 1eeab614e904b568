import SentryCocoa.Scope

/-! The breadcrumbs of a scope are a ring over a growing array. A copy of a
full scope is the one state where the write index stands behind the last slot;
a breadcrumb that is added there is lost. -/
namespace SentryCocoa.Scope
open SentryCocoa.Foundation SentryCocoa.Library.Machine SentryCocoa.Library.RingBuffer

variable {User Breadcrumb : Type}

namespace SentryScope

def ring (s : SentryScope User Breadcrumb) : CyclicBuffer Breadcrumb :=
  ⟨fun i => s.breadcrumbArray[i]?, s.currentBreadcrumbIndex⟩

/-- The write index stands on a slot, or the array is full and the index stands behind it. -/
inductive RingShape (s : SentryScope User Breadcrumb) : Prop where
  | onSlot (filling : s.ring.Filling s.maxBreadcrumbs)
  | behind (index : s.currentBreadcrumbIndex = s.maxBreadcrumbs)
      (full : s.breadcrumbArray.length = s.maxBreadcrumbs)

theorem breadcrumbs_eq_read (s : SentryScope User Breadcrumb) :
    s.breadcrumbs = s.ring.read s.maxBreadcrumbs := rfl

theorem length_breadcrumbs_le (s : SentryScope User Breadcrumb) :
    s.breadcrumbs.length ≤ s.maxBreadcrumbs := by
  simpa [breadcrumbs] using List.length_filterMap_le
    (fun i => s.breadcrumbArray[(s.currentBreadcrumbIndex + i) % s.maxBreadcrumbs]?)
    (List.range s.maxBreadcrumbs)

theorem length_breadcrumbArray_of_filling {s : SentryScope User Breadcrumb}
    (h : s.ring.Filling s.maxBreadcrumbs) : s.currentBreadcrumbIndex ≤ s.breadcrumbArray.length := by
  have hlt : s.currentBreadcrumbIndex < s.maxBreadcrumbs := h.next_lt
  have hslot : ∀ i, (s.ring.slots i).isSome ↔ i < s.breadcrumbArray.length := by
    intro i
    simp [ring]
  rcases h.slots with hfull | hpart
  · have := (hslot (s.maxBreadcrumbs - 1)).mp (hfull _ (by omega))
    omega
  · by_contra hgt
    have := (hslot s.breadcrumbArray.length).mp
      ((hpart _ (by omega)).mpr (show s.breadcrumbArray.length < s.currentBreadcrumbIndex by omega))
    omega

theorem RingShape.index_le {s : SentryScope User Breadcrumb} (h : s.RingShape) :
    s.currentBreadcrumbIndex ≤ s.breadcrumbArray.length := by
  cases h with
  | onSlot filling => exact length_breadcrumbArray_of_filling filling
  | behind index full => omega

variable [SentrySerializable Breadcrumb]

/-- No reachable state makes the indexed assignment raise. -/
theorem RingShape.addBreadcrumb_isSome {s : SentryScope User Breadcrumb} (h : s.RingShape)
    (crumb : Breadcrumb) : (s.addBreadcrumb crumb).isSome := by
  have hle := h.index_le
  unfold addBreadcrumb setObjectAtIndexedSubscript
  split
  · rfl
  · by_cases hlt : s.currentBreadcrumbIndex < s.breadcrumbArray.length
    · simp [hlt]
    · simp [show s.currentBreadcrumbIndex = s.breadcrumbArray.length by omega]

/-- What an added breadcrumb does to a scope that keeps any. -/
theorem addBreadcrumb_cases {s s' : SentryScope User Breadcrumb} {crumb : Breadcrumb}
    {sent : List (SentryScopeObserver User)} (hmax : 0 < s.maxBreadcrumbs)
    (h : s.addBreadcrumb crumb = some (s', sent)) :
    s'.ring = s.ring.push s.maxBreadcrumbs crumb ∧ s'.maxBreadcrumbs = s.maxBreadcrumbs ∧
      sent = [.addSerializedBreadcrumb (serialize crumb)] := by
  unfold addBreadcrumb at h
  rw [if_neg (by omega)] at h
  obtain ⟨array, harray, hs⟩ := Option.map_eq_some_iff.mp h
  cases hs
  refine ⟨?_, rfl, rfl⟩
  unfold setObjectAtIndexedSubscript at harray
  simp only [ring, CyclicBuffer.push, CyclicBuffer.mk.injEq, and_true]
  split at harray
  · rename_i hlt
    cases harray
    funext i
    by_cases hi : i = s.currentBreadcrumbIndex
    · subst hi
      simp [hlt]
    · simp [hi, List.getElem?_set_ne (Ne.symm hi)]
  · split at harray
    · rename_i heq
      cases harray
      rw [heq]
      exact CyclicBuffer.slots_ofList_append s.breadcrumbArray crumb
    · cases harray

theorem addBreadcrumb_of_no_room {s s' : SentryScope User Breadcrumb} {crumb : Breadcrumb}
    {sent : List (SentryScopeObserver User)} (hmax : s.maxBreadcrumbs = 0)
    (h : s.addBreadcrumb crumb = some (s', sent)) : s' = s ∧ sent = [] := by
  unfold addBreadcrumb at h
  rw [if_pos (by omega)] at h
  cases h
  exact ⟨rfl, rfl⟩

theorem addBreadcrumb_onSlot {s s' : SentryScope User Breadcrumb} {crumb : Breadcrumb}
    {sent : List (SentryScopeObserver User)} (filling : s.ring.Filling s.maxBreadcrumbs)
    (h : s.addBreadcrumb crumb = some (s', sent)) :
    s'.RingShape ∧ s'.breadcrumbs = (s.breadcrumbs ++ [crumb]).rtake s.maxBreadcrumbs := by
  have hlt : s.currentBreadcrumbIndex < s.maxBreadcrumbs := filling.next_lt
  obtain ⟨hring, hmax, -⟩ := addBreadcrumb_cases (by omega) h
  constructor
  · refine .onSlot ?_
    rw [hring, hmax]
    exact filling.push crumb
  · rw [breadcrumbs_eq_read, hring, hmax]
    exact CyclicBuffer.read_push_of_filling filling crumb

/-- Behind the last slot the new breadcrumb is lost and the oldest one is read last. -/
theorem addBreadcrumb_behind {s s' : SentryScope User Breadcrumb} {crumb oldest : Breadcrumb}
    {sent : List (SentryScopeObserver User)} (index : s.currentBreadcrumbIndex = s.maxBreadcrumbs)
    (full : s.breadcrumbArray.length = s.maxBreadcrumbs)
    (first : s.breadcrumbArray.head? = some oldest)
    (h : s.addBreadcrumb crumb = some (s', sent)) :
    s'.RingShape ∧ s'.breadcrumbs = (s.breadcrumbs ++ [oldest]).rtake s.maxBreadcrumbs := by
  have hpos : 0 < s.maxBreadcrumbs := by
    rw [← full]
    exact List.length_pos_of_mem (List.mem_of_head? first)
  obtain ⟨hring, hmax, -⟩ := addBreadcrumb_cases hpos h
  -- Up to the slots that are read, this is the write of the oldest breadcrumb to its own slot.
  let base : CyclicBuffer Breadcrumb := ⟨s.ring.slots, 0⟩
  have hbase : base.Filling s.maxBreadcrumbs := ⟨hpos, .inl fun i hi => by simp [base, ring, full, hi]⟩
  have hslots : ∀ i < s.maxBreadcrumbs,
      s'.ring.slots i = (base.push s.maxBreadcrumbs oldest).slots i := by
    intro i hi
    have hne : i ≠ s.ring.next := by
      change i ≠ s.currentBreadcrumbIndex
      omega
    have hkept : s'.ring.slots i = s.ring.slots i := by
      rw [hring]
      exact Function.update_of_ne hne _ _
    rw [hkept]
    by_cases hzero : i = 0
    · subst hzero
      simpa [base, CyclicBuffer.push, ring, List.head?_eq_getElem?] using first
    · exact (Function.update_of_ne hzero _ _).symm
  have hnext : s'.ring.next = (base.push s.maxBreadcrumbs oldest).next := by
    rw [hring]
    simp [CyclicBuffer.push, base, ring, index]
  have hpush := hbase.push oldest
  constructor
  · refine .onSlot ⟨?_, .inl fun i hi => ?_⟩
    · rw [hmax, hnext]
      exact hpush.next_lt
    · rw [hmax] at hi
      rw [hslots i hi]
      by_cases hzero : i = 0
      · simp [base, CyclicBuffer.push, hzero]
      · simp [base, CyclicBuffer.push, hzero, ring, full, hi]
  · have hread : s.breadcrumbs = base.read s.maxBreadcrumbs := by
      rw [breadcrumbs_eq_read]
      refine CyclicBuffer.read_congr (fun i _ => rfl) ?_
      simp [ring, base, index]
    rw [breadcrumbs_eq_read, hmax, CyclicBuffer.read_congr hslots (by rw [hnext]), hread]
    exact CyclicBuffer.read_push_of_filling hbase oldest

omit [SentrySerializable Breadcrumb] in
theorem ringShape_of_empty {s : SentryScope User Breadcrumb} (index : s.currentBreadcrumbIndex = 0)
    (empty : s.breadcrumbArray = []) : s.RingShape ∧ s.breadcrumbs = [] := by
  have hring : s.ring = CyclicBuffer.empty := by
    simp [ring, CyclicBuffer.empty, index, empty]
  constructor
  · by_cases hmax : s.maxBreadcrumbs = 0
    · exact .behind (by omega) (by simp [empty, hmax])
    · refine .onSlot ?_
      rw [hring]
      exact .empty (by omega)
  · rw [breadcrumbs_eq_read, hring, CyclicBuffer.read_empty]

omit [SentrySerializable Breadcrumb] in
theorem initWithScope_breadcrumbs (scope : SentryScope User Breadcrumb) :
    (initWithScope scope).RingShape ∧ (initWithScope scope).breadcrumbs = scope.breadcrumbs := by
  have hle := scope.length_breadcrumbs_le
  constructor
  · rcases Nat.lt_or_eq_of_le hle with hlt | heq
    · exact .onSlot (.ofList hlt)
    · exact .behind heq heq
  · exact CyclicBuffer.read_ofList hle

/-- The write index stands behind the last slot, as in a copy of a full scope, and
the breadcrumb is not the one that is read there. -/
def LosesBreadcrumb (s : SentryScope User Breadcrumb) (crumb : Breadcrumb) : Prop :=
  0 < s.maxBreadcrumbs ∧ s.currentBreadcrumbIndex = s.maxBreadcrumbs ∧
    s.breadcrumbArray.head? ≠ some crumb

end SentryScope

/-- A scope with the breadcrumbs added since its last clear. -/
structure TrackedScope (User Breadcrumb : Type) where
  scope : SentryScope User Breadcrumb
  added : List Breadcrumb

def TrackedScope.Recent (t : TrackedScope User Breadcrumb) : Prop :=
  t.scope.breadcrumbs = t.added.rtake t.scope.maxBreadcrumbs

inductive ScopeOperation (Breadcrumb : Type) where
  | new (maxBreadcrumbs : Nat)
  | copy (original : Nat)
  | addBreadcrumb (index : Nat) (crumb : Breadcrumb)
  | clear (index : Nat)
  | clearBreadcrumbs (index : Nat)

variable [SentrySerializable Breadcrumb]

/-- All scopes of the application, in the order of their creation. -/
def scopesStep (scopes : List (TrackedScope User Breadcrumb)) :
    ScopeOperation Breadcrumb → Option (List (TrackedScope User Breadcrumb))
  | .new maxBreadcrumbs =>
    some (scopes ++ [⟨SentryScope.initWithMaxBreadcrumbs maxBreadcrumbs, []⟩])
  | .copy original => do
    let t ← scopes[original]?
    some (scopes ++ [⟨SentryScope.initWithScope t.scope, t.scope.breadcrumbs⟩])
  | .addBreadcrumb index crumb => do
    let t ← scopes[index]?
    let (scope, _) ← t.scope.addBreadcrumb crumb
    some (scopes.set index ⟨scope, t.added ++ [crumb]⟩)
  | .clear index => do
    let t ← scopes[index]?
    some (scopes.set index ⟨t.scope.clear.1, []⟩)
  | .clearBreadcrumbs index => do
    let t ← scopes[index]?
    some (scopes.set index ⟨t.scope.clearBreadcrumbs.1, []⟩)

def KeepsBreadcrumb (scopes : List (TrackedScope User Breadcrumb)) :
    ScopeOperation Breadcrumb → Prop
  | .addBreadcrumb index crumb => ∀ t, scopes[index]? = some t → ¬ t.scope.LosesBreadcrumb crumb
  | _ => True

structure TrackedScope.Inv (t : TrackedScope User Breadcrumb) : Prop where
  shape : t.scope.RingShape
  recent : t.Recent

omit [SentrySerializable Breadcrumb] in
theorem TrackedScope.Inv.of_empty {scope : SentryScope User Breadcrumb}
    (index : scope.currentBreadcrumbIndex = 0) (empty : scope.breadcrumbArray = []) :
    TrackedScope.Inv ⟨scope, []⟩ := by
  obtain ⟨shape, hread⟩ := SentryScope.ringShape_of_empty index empty
  exact ⟨shape, by simp [Recent, hread, List.rtake]⟩

omit [SentrySerializable Breadcrumb] in
theorem TrackedScope.Inv.copy (scope : SentryScope User Breadcrumb) :
    TrackedScope.Inv ⟨SentryScope.initWithScope scope, scope.breadcrumbs⟩ := by
  obtain ⟨shape, hread⟩ := SentryScope.initWithScope_breadcrumbs scope
  exact ⟨shape, hread.trans (rtake_of_length_le scope.length_breadcrumbs_le).symm⟩

theorem TrackedScope.Inv.addBreadcrumb {t : TrackedScope User Breadcrumb} (h : t.Inv)
    {scope : SentryScope User Breadcrumb} {crumb : Breadcrumb}
    {sent : List (SentryScopeObserver User)} (keeps : ¬ t.scope.LosesBreadcrumb crumb)
    (hadd : t.scope.addBreadcrumb crumb = some (scope, sent)) :
    TrackedScope.Inv ⟨scope, t.added ++ [crumb]⟩ := by
  by_cases hmax : t.scope.maxBreadcrumbs = 0
  · obtain ⟨rfl, -⟩ := SentryScope.addBreadcrumb_of_no_room hmax hadd
    refine ⟨h.shape, ?_⟩
    have hrecent : t.scope.breadcrumbs = [] := by
      rw [h.recent, hmax, List.rtake_zero]
    simp [Recent, hrecent, hmax]
  · have hkept := (SentryScope.addBreadcrumb_cases (by omega) hadd).2.1
    have hread : scope.RingShape ∧
        scope.breadcrumbs = (t.scope.breadcrumbs ++ [crumb]).rtake t.scope.maxBreadcrumbs := by
      cases h.shape with
      | onSlot filling => exact SentryScope.addBreadcrumb_onSlot filling hadd
      | behind index full =>
        have hfirst : t.scope.breadcrumbArray.head? = some crumb := by
          by_contra hne
          exact keeps ⟨by omega, index, hne⟩
        exact SentryScope.addBreadcrumb_behind index full hfirst hadd
    refine ⟨hread.1, ?_⟩
    have hrecent : t.scope.breadcrumbs = t.added.rtake t.scope.maxBreadcrumbs := h.recent
    calc scope.breadcrumbs
        = (t.scope.breadcrumbs ++ [crumb]).rtake t.scope.maxBreadcrumbs := hread.2
      _ = (t.added ++ [crumb]).rtake t.scope.maxBreadcrumbs := by
        rw [hrecent, rtake_append_rtake]
      _ = (t.added ++ [crumb]).rtake scope.maxBreadcrumbs := by rw [hkept]

/-- A lost breadcrumb shows at once: the scope reads the oldest one in its place. -/
theorem TrackedScope.Inv.not_recent_of_losesBreadcrumb {t : TrackedScope User Breadcrumb}
    (h : t.Inv) {scope : SentryScope User Breadcrumb} {crumb : Breadcrumb}
    {sent : List (SentryScopeObserver User)} (loses : t.scope.LosesBreadcrumb crumb)
    (hadd : t.scope.addBreadcrumb crumb = some (scope, sent)) :
    ¬ TrackedScope.Recent ⟨scope, t.added ++ [crumb]⟩ := by
  obtain ⟨hpos, hindex, hne⟩ := loses
  have hkept := (SentryScope.addBreadcrumb_cases hpos hadd).2.1
  cases h.shape with
  | onSlot filling =>
    have hlt : t.scope.currentBreadcrumbIndex < t.scope.maxBreadcrumbs := filling.next_lt
    omega
  | behind index full =>
    cases hfirst : t.scope.breadcrumbArray with
    | nil =>
      rw [hfirst] at full
      simp only [List.length_nil] at full
      omega
    | cons oldest rest =>
      have hhead : t.scope.breadcrumbArray.head? = some oldest := by rw [hfirst, List.head?_cons]
      have hread := (SentryScope.addBreadcrumb_behind index full hhead hadd).2
      intro hrecent
      have hsame : (t.scope.breadcrumbs ++ [oldest]).rtake t.scope.maxBreadcrumbs =
          (t.scope.breadcrumbs ++ [crumb]).rtake t.scope.maxBreadcrumbs := by
        rw [← hread, hrecent, hkept, h.recent, rtake_append_rtake]
      obtain ⟨k, hk⟩ : ∃ k, t.scope.maxBreadcrumbs = k + 1 := ⟨_, (Nat.sub_add_cancel hpos).symm⟩
      rw [hk, List.rtake_concat_succ, List.rtake_concat_succ] at hsame
      have hcrumb : oldest = crumb := by simpa using hsame
      exact hne (by rw [hhead, hcrumb])

omit [SentrySerializable Breadcrumb] in
private theorem forall_set {P : TrackedScope User Breadcrumb → Prop}
    {scopes : List (TrackedScope User Breadcrumb)} {t : TrackedScope User Breadcrumb} {i : Nat}
    (h : ∀ u ∈ scopes, P u) (ht : P t) : ∀ u ∈ scopes.set i t, P u := by
  intro u hu
  rcases List.mem_or_eq_of_mem_set hu with hold | rfl
  · exact h u hold
  · exact ht

theorem scopesStep_addBreadcrumb {scopes scopes' : List (TrackedScope User Breadcrumb)}
    {index : Nat} {crumb : Breadcrumb}
    (h : scopesStep scopes (.addBreadcrumb index crumb) = some scopes') :
    ∃ t scope sent, scopes[index]? = some t ∧ t.scope.addBreadcrumb crumb = some (scope, sent) ∧
      scopes' = scopes.set index ⟨scope, t.added ++ [crumb]⟩ := by
  obtain ⟨t, ht, h⟩ := Option.bind_eq_some_iff.mp h
  obtain ⟨⟨scope, sent⟩, hadd, h⟩ := Option.bind_eq_some_iff.mp h
  exact ⟨t, scope, sent, ht, hadd, (Option.some.inj h).symm⟩

theorem scopesStep_inv {scopes scopes' : List (TrackedScope User Breadcrumb)}
    {operation : ScopeOperation Breadcrumb} (h : ∀ t ∈ scopes, t.Inv)
    (keeps : KeepsBreadcrumb scopes operation)
    (hstep : scopesStep scopes operation = some scopes') : ∀ t ∈ scopes', t.Inv := by
  cases operation with
  | new maxBreadcrumbs =>
    cases hstep
    exact List.forall_mem_append.mpr ⟨h, List.forall_mem_singleton.mpr (.of_empty rfl rfl)⟩
  | copy original =>
    obtain ⟨t, -, hs⟩ := Option.bind_eq_some_iff.mp hstep
    cases hs
    exact List.forall_mem_append.mpr ⟨h, List.forall_mem_singleton.mpr (.copy t.scope)⟩
  | addBreadcrumb index crumb =>
    obtain ⟨t, scope, sent, ht, hadd, rfl⟩ := scopesStep_addBreadcrumb hstep
    exact forall_set h ((h t (List.mem_of_getElem? ht)).addBreadcrumb (keeps t ht) hadd)
  | clear index =>
    obtain ⟨t, -, hs⟩ := Option.bind_eq_some_iff.mp hstep
    cases hs
    exact forall_set h (.of_empty rfl rfl)
  | clearBreadcrumbs index =>
    obtain ⟨t, -, hs⟩ := Option.bind_eq_some_iff.mp hstep
    cases hs
    exact forall_set h (.of_empty rfl rfl)

theorem not_recent_of_not_keepsBreadcrumb {scopes scopes' : List (TrackedScope User Breadcrumb)}
    {operation : ScopeOperation Breadcrumb} (h : ∀ t ∈ scopes, t.Inv)
    (loses : ¬ KeepsBreadcrumb scopes operation)
    (hstep : scopesStep scopes operation = some scopes') : ¬ ∀ t ∈ scopes', t.Recent := by
  cases operation with
  | addBreadcrumb index crumb =>
    obtain ⟨t, scope, sent, ht, hadd, rfl⟩ := scopesStep_addBreadcrumb hstep
    have hloses : t.scope.LosesBreadcrumb crumb := by
      by_contra hno
      exact loses fun u hu => Option.some.inj (ht.symm.trans hu) ▸ hno
    have hlt : index < scopes.length := (List.getElem?_eq_some_iff.mp ht).1
    intro hrecent
    exact (h t (List.mem_of_getElem? ht)).not_recent_of_losesBreadcrumb hloses hadd
      (hrecent _ (List.mem_set hlt _))
  | new _ => exact absurd trivial loses
  | copy _ => exact absurd trivial loses
  | clear _ => exact absurd trivial loses
  | clearBreadcrumbs _ => exact absurd trivial loses

/-- Every scope reads its most recent breadcrumbs in every state of a run, exactly
when no breadcrumb of the run is added behind the last slot. -/
theorem always_recent_iff (operations : List (ScopeOperation Breadcrumb)) :
    Always scopesStep (fun scopes => ∀ t ∈ scopes, t.Recent)
        ([] : List (TrackedScope User Breadcrumb)) operations ↔
      Allowed scopesStep KeepsBreadcrumb ([] : List (TrackedScope User Breadcrumb)) operations := by
  have start : ∀ t ∈ ([] : List (TrackedScope User Breadcrumb)), t.Inv := by
    intro t ht
    cases ht
  exact always_iff_allowed (fun scopes h t ht => (h t ht).recent)
    (fun _ _ _ h keeps hstep => scopesStep_inv h keeps hstep)
    (fun _ _ _ h loses hstep => not_recent_of_not_keepsBreadcrumb h loses hstep) start operations

/-- The copy of a full scope reads the breadcrumb it should have dropped, and not the added one. -/
theorem copy_of_full_scope_loses_breadcrumb :
    ¬ Always scopesStep (fun scopes => ∀ t ∈ scopes, t.Recent)
      ([] : List (TrackedScope String String))
      [.new 2, .addBreadcrumb 0 "a", .addBreadcrumb 0 "b", .copy 0, .addBreadcrumb 1 "c"] := by
  intro h
  have hend := h.exec rfl
  have hcopy := hend _ (List.mem_cons_of_mem _ (List.mem_singleton_self _))
  have hread : (["b", "a"] : List String) = ["b", "c"] := hcopy
  exact absurd hread (by decide)

end SentryCocoa.Scope
