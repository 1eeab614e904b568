import SentryCocoa.SwizzleRuns

/-! How often the block of a key runs for one message. A key is refused for a class when the class
or one of its superclasses has it, but not when a subclass has it. -/
namespace SentryCocoa.Swizzle
open SentryCocoa.Library.Machine

/-- A message to the first class gets as far as the second: no class before it has code. -/
def reaches (own : Own) (sel : SEL) : Class → Class → Bool
  | [], _ => false
  | id :: superclasses, cls =>
    decide (id :: superclasses = cls) ||
      (own (id :: superclasses) sel).isNone && reaches own sel superclasses cls

variable {own : Own} {sel : SEL}

theorem reaches_self {cls : Class} (h : cls ≠ []) : reaches own sel cls cls = true := by
  cases cls with
  | nil => exact absurd rfl h
  | cons id superclasses => simp [reaches]

theorem suffix_of_reaches {first second : Class} (h : reaches own sel first second = true) :
    second <:+ first := by
  induction first with
  | nil => cases h
  | cons id superclasses ih =>
    rw [reaches, Bool.or_eq_true, decide_eq_true_eq, Bool.and_eq_true] at h
    rcases h with rfl | ⟨-, h⟩
    · exact List.suffix_refl _
    · exact (ih h).trans (List.suffix_cons id superclasses)

/-- Of two classes that one message gets to, one is on the way from the other. -/
theorem reaches_total {cls first second : Class} (hfirst : reaches own sel cls first = true)
    (hsecond : reaches own sel cls second = true) :
    reaches own sel first second = true ∨ reaches own sel second first = true := by
  induction cls with
  | nil => cases hfirst
  | cons id superclasses ih =>
    have hboth := And.intro hfirst hsecond
    simp only [reaches, Bool.or_eq_true, decide_eq_true_eq, Bool.and_eq_true] at hboth
    obtain ⟨rfl | ⟨-, habove⟩, rfl | ⟨-, habove'⟩⟩ := hboth
    · exact .inl (reaches_self (List.cons_ne_nil _ _))
    · exact .inl hsecond
    · exact .inr hfirst
    · exact ih habove habove'

namespace Runtime

variable {r : Runtime} {key : Nat}

/-- How many of the implementations that a message runs were made for the key. -/
def timesRun (r : Runtime) (key : Nat) (cls : Class) (sel : SEL) : Nat :=
  ((r.send (r.infos.length + 1) cls sel).getD []).countP fun imp =>
    (r.infoOf imp).any fun info => info.key = some key

def AtMostOnce (r : Runtime) (key : Nat) : Prop := ∀ cls sel, r.timesRun key cls sel ≤ 1

/-- A message to the class runs the block of this info, which was made for the key. -/
def isOnWay (own : Own) (key : Nat) (cls : Class) (sel : SEL) (info : SentrySwizzleInfo) : Bool :=
  decide (info.key = some key ∧ info.selector = sel) && reaches own sel cls info.classToSwizzle

theorem countP_eq_add {α : Type} {p q s : α → Bool} {list : List α}
    (hor : ∀ a ∈ list, p a = (q a || s a)) (hnot : ∀ a ∈ list, q a = true → s a = false) :
    list.countP p = list.countP q + list.countP s := by
  induction list with
  | nil => rfl
  | cons a list ih =>
    have hrest := ih (fun b hb => hor b (List.mem_cons_of_mem a hb)) fun b hb =>
      hnot b (List.mem_cons_of_mem a hb)
    simp only [List.countP_cons, hor a List.mem_cons_self, hrest]
    cases hq : q a with
    | true =>
      rw [hnot a List.mem_cons_self hq]
      simp only [Bool.or_false, if_true, Bool.false_eq_true, if_false]
      omega
    | false =>
      simp only [Bool.false_or, Bool.false_eq_true, if_false]
      omega

theorem not_reaches_of_longer {cls other : Class} (h : cls.length < other.length) :
    reaches own sel cls other = false := by
  apply Bool.eq_false_iff.mpr
  intro hreaches
  exact Nat.not_lt.mpr (suffix_of_reaches hreaches).length_le h

/-- The blocks for the key that a path has. -/
theorem countP_path {cls : Class} {entered : List IMP} (h : r.path own sel cls = some entered) :
    entered.countP (fun imp => (r.infoOf imp).any fun info => info.key = some key) =
      r.infos.countP (isOnWay own key cls sel) := by
  induction cls generalizing entered with
  | nil => cases h
  | cons id superclasses ih =>
    have hhooks := r.countP_hooks (id :: superclasses) sel fun info => decide (info.key = some key)
    cases hown : own (id :: superclasses) sel with
    | some code =>
      rw [path_of_some hown] at h
      cases h
      rw [List.countP_append, hhooks, List.countP_singleton]
      simp only [infoOf, Option.any_none, Bool.false_eq_true, if_false, Nat.add_zero]
      apply List.countP_congr
      intro info _
      simp only [isOnWay, reaches, hown, Option.isNone_some, Bool.false_and, Bool.or_false,
        Bool.and_eq_true, decide_eq_true_eq]
      constructor
      · rintro ⟨hkey, hclass, hselector⟩
        exact ⟨⟨hkey, hselector⟩, hclass.symm⟩
      · rintro ⟨⟨hkey, hselector⟩, hclass⟩
        exact ⟨hkey, hclass.symm, hselector⟩
    | none =>
      rw [path_of_none hown] at h
      obtain ⟨above, habove, rfl⟩ := Option.map_eq_some_iff.mp h
      rw [List.countP_append, hhooks, ih habove]
      refine (countP_eq_add (fun info _ => ?_) fun info _ hclass => ?_).symm
      · rw [Bool.eq_iff_iff]
        simp only [isOnWay, reaches, hown, Option.isNone_none, Bool.true_and, Bool.and_eq_true,
          Bool.or_eq_true, decide_eq_true_eq]
        constructor
        · rintro ⟨⟨hkey, hselector⟩, hclass | hreaches⟩
          · exact .inl ⟨hkey, hclass.symm, hselector⟩
          · exact .inr ⟨⟨hkey, hselector⟩, hreaches⟩
        · rintro (⟨hkey, hclass, hselector⟩ | ⟨⟨hkey, hselector⟩, hreaches⟩)
          · exact ⟨⟨hkey, hselector⟩, .inl hclass.symm⟩
          · exact ⟨⟨hkey, hselector⟩, .inr hreaches⟩
      · rw [decide_eq_true_eq] at hclass
        rw [isOnWay, hclass.2.1, not_reaches_of_longer (by simp), Bool.and_false]

/-- A class on the way has code above it, so the message ends in it. -/
theorem codeOf_of_reaches {cls other : Class} (h : reaches own sel cls other = true)
    (hcode : (codeOf own sel other).isSome = true) : (codeOf own sel cls).isSome = true := by
  induction cls with
  | nil => cases h
  | cons id superclasses ih =>
    rw [reaches, Bool.or_eq_true, decide_eq_true_eq, Bool.and_eq_true] at h
    rcases h with rfl | ⟨-, h⟩
    · exact hcode
    · rw [codeOf, Option.isSome_or, ih h, Bool.or_true]

theorem Swizzled.timesRun_eq (h : Swizzled r own) (key : Nat) (cls : Class) (sel : SEL) :
    r.timesRun key cls sel = r.infos.countP (isOnWay own key cls sel) := by
  rw [timesRun, h.send_eq cls sel (Nat.lt_succ_self _)]
  cases hpath : r.path own sel cls with
  | some entered => exact countP_path hpath
  | none =>
    refine (List.countP_eq_zero.mpr fun info hinfo hway => ?_).symm
    rw [isOnWay, Bool.and_eq_true, decide_eq_true_eq] at hway
    obtain ⟨⟨-, rfl⟩, hreaches⟩ := hway
    have hsome := isSome_path r own info.selector cls
    rw [hpath, codeOf_of_reaches hreaches (h.known info hinfo)] at hsome
    cases hsome

/-- No swizzling for the key has put a block on the way to the class, or on the way from it. -/
def Unrelated (own : Own) (key : Nat) (r : Runtime) (input : Input) : Prop :=
  input.key = some key → r.isRefused input = false → ∀ info ∈ r.infos, info.key = some key →
    info.selector = input.selector →
      reaches own input.selector info.classToSwizzle input.classToSwizzle = false ∧
        reaches own input.selector input.classToSwizzle info.classToSwizzle = false

/-- A swizzling adds its block to the messages that get as far as the class. -/
theorem infos_step {r' : Runtime} {input : Input} (hstep : r.step input = some r') :
    (r.isRefused input = true ∧ r'.infos = r.infos) ∨
      (r.isRefused input = false ∧ ∃ info, info.key = input.key ∧
        info.selector = input.selector ∧ info.classToSwizzle = input.classToSwizzle ∧
          r'.infos = r.infos ++ [info]) := by
  obtain ⟨hrefused, rfl⟩ | ⟨haccepted, -, rfl⟩ := step_cases hstep
  · exact .inl ⟨hrefused, rfl⟩
  · exact .inr ⟨haccepted, _, rfl, rfl, rfl, rfl⟩

structure SwizzledOnce (r : Runtime) (own : Own) (key : Nat) : Prop where
  swizzled : Swizzled r own
  once : r.AtMostOnce key

theorem SwizzledOnce.keep {r' : Runtime} {input : Input} (h : SwizzledOnce r own key)
    (hunrelated : Unrelated own key r input) (hstep : r.step input = some r') :
    SwizzledOnce r' own key := by
  refine ⟨h.swizzled.step hstep, fun cls sel => ?_⟩
  have hold : r.infos.countP (isOnWay own key cls sel) ≤ 1 :=
    h.swizzled.timesRun_eq key cls sel ▸ h.once cls sel
  rw [(h.swizzled.step hstep).timesRun_eq]
  obtain ⟨-, heq⟩ | ⟨haccepted, info, hkey, hselector, hclass, heq⟩ := infos_step hstep
  · exact heq ▸ hold
  · rw [heq, List.countP_append, List.countP_singleton]
    split
    · rename_i hway
      rw [isOnWay, Bool.and_eq_true, decide_eq_true_eq] at hway
      obtain ⟨⟨hkey', rfl⟩, hreaches⟩ := hway
      -- nothing that was made for the key is on the way as well
      have hnone : r.infos.countP (isOnWay own key cls info.selector) = 0 := by
        refine List.countP_eq_zero.mpr fun other hother hway' => ?_
        rw [isOnWay, Bool.and_eq_true, decide_eq_true_eq] at hway'
        obtain ⟨⟨hotherKey, hotherSelector⟩, hotherReaches⟩ := hway'
        have hboth := hunrelated (hkey ▸ hkey') haccepted other hother hotherKey
          (hotherSelector.trans hselector)
        rw [hselector] at hreaches hotherReaches
        rw [hclass] at hreaches
        cases reaches_total hotherReaches hreaches with
        | inl hbelow => rw [hboth.1] at hbelow; cases hbelow
        | inr habove => rw [hboth.2] at habove; cases habove
      omega
    · omega

theorem two_le_countP {α : Type} {p : α → Bool} {list : List α} {a b : α} (ha : a ∈ list)
    (hpa : p a = true) (hpb : p b = true) : 2 ≤ (list ++ [b]).countP p := by
  have hpos : 0 < list.countP p := List.countP_pos_iff.mpr ⟨a, ha, hpa⟩
  rw [List.countP_append, List.countP_singleton, if_pos hpb]
  omega

theorem class_ne_nil (h : Swizzled r own) {info : SentrySwizzleInfo} (hinfo : info ∈ r.infos) :
    info.classToSwizzle ≠ [] := by
  intro hnil
  have hsome := h.known info hinfo
  rw [hnil] at hsome
  cases hsome

theorem SwizzledOnce.spoil {r' : Runtime} {input : Input} (h : SwizzledOnce r own key)
    (hrelated : ¬Unrelated own key r input) (hstep : r.step input = some r') :
    ¬r'.AtMostOnce key := by
  have hswizzled := h.swizzled.step hstep
  obtain ⟨hrefused, -⟩ | ⟨haccepted, info, hkey, hselector, hclass, heq⟩ := infos_step hstep
  · exact absurd (fun _ haccepted => absurd (hrefused.symm.trans haccepted) (by decide)) hrelated
  · intro honce
    have hcount (cls : Class) : (r.infos ++ [info]).countP
        (isOnWay own key cls input.selector) ≤ 1 := by
      rw [← heq, ← hswizzled.timesRun_eq]
      exact honce cls input.selector
    have hinfo : info ∈ r'.infos := heq ▸ List.mem_append_right _ List.mem_cons_self
    refine hrelated fun hinput _ other hother hotherKey hotherSelector => ⟨?_, ?_⟩
    · refine Bool.eq_false_iff.mpr fun hreaches => ?_
      have hself := @reaches_self own input.selector _ (class_ne_nil h.swizzled hother)
      have htwo := two_le_countP (p := isOnWay own key other.classToSwizzle input.selector)
        (b := info) hother (by simp [isOnWay, hotherKey, hotherSelector, hself])
        (by simp [isOnWay, hkey, hinput, hselector, hclass, hreaches])
      exact absurd (hcount other.classToSwizzle) (by omega)
    · refine Bool.eq_false_iff.mpr fun hreaches => ?_
      have hself := @reaches_self own input.selector _ (class_ne_nil hswizzled hinfo)
      rw [hclass] at hself
      have htwo := two_le_countP (p := isOnWay own key input.classToSwizzle input.selector)
        (b := info) hother (by simp [isOnWay, hotherKey, hotherSelector, hreaches])
        (by simp [isOnWay, hkey, hinput, hselector, hclass, hself])
      exact absurd (hcount input.classToSwizzle) (by omega)

theorem swizzledOnce_init (own : Own) (key : Nat) : SwizzledOnce (init own) own key := by
  refine ⟨swizzled_init own, fun cls sel => ?_⟩
  rw [(swizzled_init own).timesRun_eq]
  exact Nat.zero_le 1

theorem always_once_iff (own : Own) (key : Nat) (inputs : List Input) :
    Always step (fun r => r.AtMostOnce key) (init own) inputs ↔
      Allowed step (Unrelated own key) (init own) inputs :=
  always_iff_allowed (fun _ h => h.once) (fun _ _ _ => SwizzledOnce.keep)
    (fun _ _ _ => SwizzledOnce.spoil) (swizzledOnce_init own key) inputs

/-! ### The mode that asks for the superclasses -/

/-- No subclass that has the method from the class was swizzled for the key. -/
def SuperclassFirst (own : Own) (key : Nat) (r : Runtime) (input : Input) : Prop :=
  input.key = some key → r.isRefused input = false → ∀ info ∈ r.infos, info.key = some key →
    info.selector = input.selector →
      reaches own input.selector info.classToSwizzle input.classToSwizzle = false

/-- The classes of the key are those of its infos. -/
structure Recorded (r : Runtime) (own : Own) (key : Nat) : Prop where
  swizzled : Swizzled r own
  recorded : ∀ info ∈ r.infos, info.key = some key →
    (key, info.classToSwizzle) ∈ r.swizzledClasses

theorem Recorded.step {r' : Runtime} {input : Input} (h : Recorded r own key)
    (hstep : r.step input = some r') : Recorded r' own key := by
  refine ⟨h.swizzled.step hstep, ?_⟩
  obtain ⟨-, rfl⟩ | ⟨-, -, rfl⟩ := step_cases hstep
  · exact h.recorded
  · intro info hinfo hkey
    cases List.mem_append.mp hinfo with
    | inl hold => exact List.mem_append_right _ (h.recorded info hold hkey)
    | inr hnew =>
      cases List.mem_singleton.mp hnew
      change input.key = some key at hkey
      rw [hkey]
      exact List.mem_append_left _ List.mem_cons_self

theorem isSwizzledAbove_of_suffix {cls other : Class} (hsuffix : other <:+ cls) (hne : other ≠ [])
    (hmem : (key, other) ∈ r.swizzledClasses) : r.isSwizzledAbove key cls = true := by
  induction cls with
  | nil => exact absurd (List.suffix_nil.mp hsuffix) hne
  | cons id superclasses ih =>
    rw [isSwizzledAbove, Bool.or_eq_true, decide_eq_true_eq]
    cases List.suffix_cons_iff.mp hsuffix with
    | inl heq => exact .inl (heq ▸ hmem)
    | inr habove => exact .inr (ih habove)

theorem Recorded.unrelated_iff {input : Input} (h : Recorded r own key)
    (mode : input.key = some key → input.mode = .oncePerClassAndSuperclasses) :
    Unrelated own key r input ↔ SuperclassFirst own key r input := by
  refine forall₂_congr fun hkey haccepted => forall₂_congr fun info hinfo => ?_
  refine forall₂_congr fun hinfoKey hselector => and_iff_left ?_
  refine Bool.eq_false_iff.mpr fun hreaches => ?_
  have habove : r.isSwizzledAbove key input.classToSwizzle = true :=
    isSwizzledAbove_of_suffix (suffix_of_reaches hreaches) (class_ne_nil h.swizzled hinfo)
      (h.recorded info hinfo hinfoKey)
  rw [isRefused, hkey, mode hkey] at haccepted
  exact absurd (habove.symm.trans haccepted) (by decide)

end Runtime

/-- With the mode that asks for the superclasses, the block of a key runs at most once for every
message if and only if no class is swizzled after a subclass that has the method from it. -/
theorem once_per_message_iff (own : Own) (key : Nat) (inputs : List Input)
    (modes : ∀ input ∈ inputs, input.key = some key →
      input.mode = .oncePerClassAndSuperclasses) :
    Always Runtime.step (fun r => r.AtMostOnce key) (.init own) inputs ↔
      Allowed Runtime.step (Runtime.SuperclassFirst own key) (.init own) inputs := by
  have hinit : Runtime.Recorded (.init own) own key :=
    ⟨Runtime.swizzled_init own, fun _ hinfo => absurd hinfo List.not_mem_nil⟩
  rw [Runtime.always_once_iff]
  exact allowed_congr_of_invariant
    (fun (r : Runtime) _ _ (h : r.Recorded own key) => h.step) hinit
    fun r hr input hinput => hr.unrelated_iff (modes input hinput)

theorem once_per_message_iff_subclassFirst :
    Always Runtime.step (fun r => r.AtMostOnce 4) (.init inheritedMethod) subclassFirst ↔
      Allowed Runtime.step (Runtime.SuperclassFirst inheritedMethod 4) (.init inheritedMethod)
        subclassFirst :=
  once_per_message_iff inheritedMethod 4 subclassFirst (by decide)

end SentryCocoa.Swizzle
