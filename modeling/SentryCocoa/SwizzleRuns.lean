import Mathlib.Data.List.Induction
import SentryCocoa.Swizzle

/-! What a message runs after any number of swizzlings. -/
namespace SentryCocoa.Swizzle
open SentryCocoa.Library.Machine

namespace Runtime

variable {r : Runtime} {own : Own} {cls : Class} {sel : SEL} {key : Option Nat}

/-! ### One swizzling -/

theorem hooks_swizzle (classToSwizzle : Class) (selector : SEL) :
    (r.swizzle classToSwizzle selector key).hooks cls sel =
      if cls = classToSwizzle ∧ sel = selector then .block r.infos.length :: r.hooks cls sel
      else r.hooks cls sel := by
  have hold : (List.range r.infos.length).reverse.filter (fun index =>
      ((r.swizzle classToSwizzle selector key).infos[index]?).any fun info =>
        info.classToSwizzle = cls ∧ info.selector = sel) =
      (List.range r.infos.length).reverse.filter fun index =>
        (r.infos[index]?).any fun info => info.classToSwizzle = cls ∧ info.selector = sel := by
    apply List.filter_congr
    intro index hindex
    have hlt : index < r.infos.length := List.mem_range.mp (List.mem_reverse.mp hindex)
    simp only [swizzle, List.getElem?_append_left hlt]
  have hlength : (r.swizzle classToSwizzle selector key).infos.length = r.infos.length + 1 := by
    simp [swizzle]
  have hnew : (r.swizzle classToSwizzle selector key).infos[r.infos.length]? =
      some ⟨classToSwizzle, selector, key, r.methods classToSwizzle selector⟩ := by
    simp [swizzle]
  simp only [hooks, hlength, List.range_succ, List.reverse_append, List.reverse_singleton,
    List.singleton_append, List.filter_cons, hold, hnew, Option.any_some, decide_eq_true_eq]
  by_cases heq : cls = classToSwizzle ∧ sel = selector
  · rw [if_pos heq, if_pos ⟨heq.1.symm, heq.2.symm⟩, List.map_cons]
  · rw [if_neg heq, if_neg fun h => heq ⟨h.1.symm, h.2.symm⟩]

theorem implementations_swizzle (classToSwizzle : Class) (selector : SEL) :
    (r.swizzle classToSwizzle selector key).implementations own cls sel =
      if cls = classToSwizzle ∧ sel = selector then
        .block r.infos.length :: r.implementations own cls sel
      else r.implementations own cls sel := by
  simp only [implementations, hooks_swizzle]
  split <;> rfl

theorem Linked.swizzle (h : Linked r own) (classToSwizzle : Class) (selector : SEL)
    (key : Option Nat) : Linked (r.swizzle classToSwizzle selector key) own where
  head cls sel := by
    rw [implementations_swizzle]
    by_cases heq : cls = classToSwizzle ∧ sel = selector
    · simp [Runtime.swizzle, heq]
    · rw [if_neg heq, ← h.head]
      simp [Runtime.swizzle, heq]
  next cls sel before after index hsplit := by
    have hkeep (rest : List IMP) (hold : r.implementations own cls sel =
        rest ++ .block index :: after) :
        ∃ info, (r.swizzle classToSwizzle selector key).infos[index]? = some info ∧
          info.classToSwizzle = cls ∧ info.selector = sel ∧ info.originalIMP = after.head? := by
      obtain ⟨info, hinfo, hrest⟩ := h.next cls sel rest after index hold
      refine ⟨info, ?_, hrest⟩
      rw [Runtime.swizzle, List.getElem?_append_left (List.getElem?_eq_some_iff.mp hinfo).1]
      exact hinfo
    rw [implementations_swizzle] at hsplit
    by_cases heq : cls = classToSwizzle ∧ sel = selector
    · obtain ⟨rfl, rfl⟩ := heq
      rw [if_pos ⟨rfl, rfl⟩] at hsplit
      cases before with
      | nil =>
        obtain ⟨hindex, hafter⟩ := List.cons.inj hsplit
        cases hindex
        refine ⟨_, List.getElem?_concat_length, rfl, rfl, ?_⟩
        rw [← hafter]
        exact h.head cls sel
      | cons first rest => exact hkeep rest (List.cons.inj hsplit).2
    · rw [if_neg heq] at hsplit
      exact hkeep before hsplit

theorem linked_init (own : Own) : Linked (init own) own where
  head cls sel := by
    cases hown : own cls sel <;> simp [init, implementations, hooks, hown]
  next cls sel before after index hsplit := by
    have hmem : IMP.block index ∈ (init own).implementations own cls sel := by
      rw [hsplit]
      exact List.mem_append_right before List.mem_cons_self
    cases hown : own cls sel <;> simp [init, implementations, hooks, hown] at hmem

/-! ### One message -/

theorem path_of_some {id code : Nat} {superclasses : Class}
    (hown : own (id :: superclasses) sel = some code) :
    r.path own sel (id :: superclasses) =
      some (r.hooks (id :: superclasses) sel ++ [.code code]) := by
  simp only [path, hown]

theorem path_of_none {id : Nat} {superclasses : Class}
    (hown : own (id :: superclasses) sel = none) :
    r.path own sel (id :: superclasses) =
      (r.path own sel superclasses).map (r.hooks (id :: superclasses) sel ++ ·) := by
  simp only [path, hown]

theorem implementations_of_some {code : Nat} (hown : own cls sel = some code) :
    r.implementations own cls sel = r.hooks cls sel ++ [.code code] := by
  rw [implementations, hown]
  rfl

theorem implementations_of_none (hown : own cls sel = none) :
    r.implementations own cls sel = r.hooks cls sel := by
  rw [implementations, hown]
  exact List.append_nil _

/-- The implementations of a class run one after the other, and then what follows them. -/
theorem Linked.invoke (h : Linked r own) (cls : Class) (rest : List IMP) {bottom : List IMP}
    (least : Nat) (hbottom : ∀ fuel, least ≤ fuel →
      (rest.head?.or (r.class_getInstanceMethod (class_getSuperclass cls) sel)).bind
        (r.invoke fuel) = some bottom) (indices : List Nat) (before : List IMP)
    (hsplit : r.implementations own cls sel = before ++ (indices.map IMP.block ++ rest)) (fuel : Nat)
    (hfuel : indices.length + least ≤ fuel) :
    ((indices.map IMP.block ++ rest).head?.or
        (r.class_getInstanceMethod (class_getSuperclass cls) sel)).bind (r.invoke fuel) =
      some (indices.map IMP.block ++ bottom) := by
  induction indices generalizing before fuel with
  | nil => exact hbottom fuel (by simpa using hfuel)
  | cons index indices ih =>
    obtain ⟨info, hinfo, hclass, hselector, horiginal⟩ := h.next cls sel before
      (indices.map IMP.block ++ rest) index hsplit
    obtain ⟨fuel, rfl⟩ : ∃ fewer, fuel = fewer + 1 := ⟨fuel - 1, by simp at hfuel; omega⟩
    have hrest := ih (before ++ [.block index]) (by rw [hsplit]; simp) fuel (by
      simp at hfuel
      omega)
    have hget : r.getOriginalImplementation info =
        (indices.map IMP.block ++ rest).head?.or
          (r.class_getInstanceMethod (class_getSuperclass cls) sel) := by
      rw [getOriginalImplementation, horiginal, hclass, hselector]
    rw [← hget] at hrest
    obtain ⟨imp, himp, hentered⟩ := Option.bind_eq_some_iff.mp hrest
    simp [Runtime.invoke, hinfo, himp, hentered]

theorem exists_indices (r : Runtime) (cls : Class) (sel : SEL) :
    ∃ indices : List Nat, r.hooks cls sel = indices.map IMP.block := ⟨_, rfl⟩

/-- Enough fuel gives what the path says. -/
theorem Linked.send (h : Linked r own) (sel : SEL) {cls : Class} {entered : List IMP}
    (hpath : r.path own sel cls = some entered) (fuel : Nat) (hfuel : entered.length ≤ fuel) :
    r.send fuel cls sel = some entered := by
  induction cls generalizing entered fuel with
  | nil => cases hpath
  | cons id superclasses ih =>
    obtain ⟨indices, hindices⟩ := exists_indices r (id :: superclasses) sel
    rw [Runtime.send, class_getInstanceMethod, h.head]
    cases hown : own (id :: superclasses) sel with
    | some code =>
      rw [path_of_some hown, hindices] at hpath
      cases hpath
      rw [implementations_of_some hown, hindices]
      refine h.invoke (id :: superclasses) [.code code] 0 (fun fuel _ => ?_) indices []
        (by rw [implementations_of_some hown, hindices]; rfl) fuel ?_
      · cases fuel <;> rfl
      · simp at hfuel
        omega
    | none =>
      rw [path_of_none hown, hindices] at hpath
      obtain ⟨above, habove, rfl⟩ := Option.map_eq_some_iff.mp hpath
      rw [implementations_of_none hown, hindices]
      have hinvoke := h.invoke (id :: superclasses) [] above.length
        (fun fuel hfuel => ih habove fuel hfuel) indices []
        (by rw [implementations_of_none hown, hindices]; simp) fuel (by simpa using hfuel)
      rw [List.append_nil] at hinvoke
      exact hinvoke

/-! ### Every message -/

def infoOf (r : Runtime) : IMP → Option SentrySwizzleInfo
  | .code _ => none
  | .block index => r.infos[index]?

theorem infos_of_mem_hooks {imp : IMP} (h : imp ∈ r.hooks cls sel) :
    ∃ index info, imp = .block index ∧ r.infos[index]? = some info ∧
      info.classToSwizzle = cls ∧ info.selector = sel := by
  obtain ⟨index, hindex, rfl⟩ := List.mem_map.mp h
  have hany := (List.mem_filter.mp hindex).2
  cases hinfo : r.infos[index]? with
  | none => simp [hinfo] at hany
  | some info =>
    rw [hinfo, Option.any_some, decide_eq_true_eq] at hany
    exact ⟨index, info, rfl, hinfo, hany.1, hany.2⟩

/-- The code that a message to the class ends in. -/
def codeOf (own : Own) (sel : SEL) : Class → Option Nat
  | [] => none
  | id :: superclasses => (own (id :: superclasses) sel).or (codeOf own sel superclasses)

theorem isSome_path (r : Runtime) (own : Own) (sel : SEL) (cls : Class) :
    (r.path own sel cls).isSome = (codeOf own sel cls).isSome := by
  induction cls with
  | nil => rfl
  | cons id superclasses ih =>
    rw [codeOf]
    cases hown : own (id :: superclasses) sel with
    | some code => rw [path_of_some hown, Option.some_or]; rfl
    | none => rw [path_of_none hown, Option.none_or, Option.isSome_map, ih]

/-- Only a method that the class knows is swizzled. -/
def Known (r : Runtime) (own : Own) : Prop :=
  ∀ info ∈ r.infos, (codeOf own info.selector info.classToSwizzle).isSome = true

theorem class_getInstanceMethod_eq_none (h : Linked r own) (hknown : Known r own) {cls : Class}
    (hcode : codeOf own sel cls = none) : r.class_getInstanceMethod cls sel = none := by
  induction cls with
  | nil => rfl
  | cons id superclasses ih =>
    obtain ⟨hown, habove⟩ := Option.or_eq_none_iff.mp hcode
    have hhooks : r.hooks (id :: superclasses) sel = [] := by
      refine List.eq_nil_iff_forall_not_mem.mpr fun imp himp => ?_
      obtain ⟨index, info, -, hinfo, hclass, hselector⟩ := infos_of_mem_hooks himp
      have hsome := hknown info (List.mem_of_getElem? hinfo)
      rw [hclass, hselector, hcode] at hsome
      cases hsome
    rw [class_getInstanceMethod, h.head, implementations_of_none hown, hhooks, ih habove]
    rfl

theorem countP_range_getElem? (infos : List SentrySwizzleInfo) (p : SentrySwizzleInfo → Bool) :
    (List.range infos.length).countP (fun index => (infos[index]?).any p) = infos.countP p := by
  induction infos using List.reverseRecOn with
  | nil => rfl
  | append_singleton infos info ih =>
    rw [List.length_append, List.length_singleton, List.range_succ, List.countP_append,
      List.countP_append, ← ih]
    congr 1
    · apply List.countP_congr
      intro index hindex
      rw [List.getElem?_append_left (List.mem_range.mp hindex)]
    · simp

/-- The hooks of a method with a property are counted by their infos. -/
theorem countP_hooks (r : Runtime) (cls : Class) (sel : SEL) (p : SentrySwizzleInfo → Bool) :
    (r.hooks cls sel).countP (fun imp => r.infoOf imp |>.any p) =
      r.infos.countP fun info => p info ∧ info.classToSwizzle = cls ∧ info.selector = sel := by
  rw [hooks, List.countP_map, List.countP_filter, (List.reverse_perm _).countP_eq,
    ← countP_range_getElem?]
  apply List.countP_congr
  intro index _
  cases hinfo : r.infos[index]? <;> simp [infoOf, hinfo]

theorem length_hooks (r : Runtime) (cls : Class) (sel : SEL) :
    (r.hooks cls sel).length =
      r.infos.countP fun info => info.classToSwizzle = cls ∧ info.selector = sel := by
  rw [hooks, List.length_map, ← List.countP_eq_length_filter,
    (List.reverse_perm _).countP_eq, countP_range_getElem?]

/-- The hooks on a path belong to different classes. -/
theorem length_path {entered : List IMP} {cls : Class} (h : r.path own sel cls = some entered) :
    entered.length ≤ (r.infos.countP fun info => info.classToSwizzle.length ≤ cls.length) + 1 := by
  induction cls generalizing entered with
  | nil => cases h
  | cons id superclasses ih =>
    have hsplit : (r.hooks (id :: superclasses) sel).length +
        (r.infos.countP fun info => info.classToSwizzle.length ≤ superclasses.length) ≤
        r.infos.countP fun info => info.classToSwizzle.length ≤ (id :: superclasses).length := by
      rw [length_hooks]
      induction r.infos with
      | nil => exact Nat.le_refl 0
      | cons info infos ih =>
        simp only [List.countP_cons, decide_eq_true_eq, List.length_cons] at ih ⊢
        by_cases heq : info.classToSwizzle = id :: superclasses ∧ info.selector = sel
        · have hlength : info.classToSwizzle.length = superclasses.length + 1 := by
            rw [heq.1, List.length_cons]
          rw [if_pos heq, if_neg (by omega), if_pos (by omega)]
          omega
        · rw [if_neg heq]
          split <;> split <;> omega
    cases hown : own (id :: superclasses) sel with
    | some code =>
      rw [path_of_some hown] at h
      cases h
      rw [List.length_append, List.length_singleton]
      omega
    | none =>
      rw [path_of_none hown] at h
      obtain ⟨above, habove, rfl⟩ := Option.map_eq_some_iff.mp h
      have hrest := ih habove
      rw [List.length_append]
      omega

/-- What every swizzling keeps. -/
structure Swizzled (r : Runtime) (own : Own) : Prop where
  linked : Linked r own
  known : Known r own

theorem Swizzled.send_eq (h : Swizzled r own) (cls : Class) (sel : SEL) {fuel : Nat}
    (hfuel : r.infos.length < fuel) : r.send fuel cls sel = r.path own sel cls := by
  cases hpath : r.path own sel cls with
  | some entered =>
    have hlength := length_path hpath
    have hle := List.countP_le_length
      (p := fun info : SentrySwizzleInfo => info.classToSwizzle.length ≤ cls.length) (l := r.infos)
    exact h.linked.send sel hpath fuel (by omega)
  | none =>
    have hcode : codeOf own sel cls = none := by
      have hsame := isSome_path r own sel cls
      rw [hpath] at hsame
      exact Option.isNone_iff_eq_none.mp (by simpa using hsame)
    rw [Runtime.send, class_getInstanceMethod_eq_none h.linked h.known hcode]
    rfl

/-- A swizzling either leaves everything as it is or puts one hook on a method. -/
theorem step_cases {r r' : Runtime} {input : Input} (h : r.step input = some r') :
    (r.isRefused input = true ∧ r' = r) ∨
      (r.isRefused input = false ∧
        r.class_getInstanceMethod input.classToSwizzle input.selector ≠ none ∧
        r' = { r.swizzle input.classToSwizzle input.selector input.key with
          swizzledClasses :=
            input.key.toList.map (·, input.classToSwizzle) ++ r.swizzledClasses }) := by
  obtain ⟨⟨after, swizzled⟩, hswizzled, rfl⟩ := Option.map_eq_some_iff.mp h
  unfold swizzleInstanceMethod at hswizzled
  split at hswizzled
  · rename_i hrefused
    cases hswizzled
    exact .inl ⟨hrefused, rfl⟩
  · rename_i haccepted
    split at hswizzled
    · cases hswizzled
    · rename_i hfound
      cases hswizzled
      exact .inr ⟨Bool.eq_false_iff.mpr haccepted, hfound, rfl⟩

theorem Swizzled.step {r' : Runtime} {input : Input} (h : Swizzled r own)
    (hstep : r.step input = some r') : Swizzled r' own := by
  obtain ⟨-, rfl⟩ | ⟨-, hfound, rfl⟩ := step_cases hstep
  · exact h
  · have hlinked := h.linked.swizzle input.classToSwizzle input.selector input.key
    refine ⟨⟨hlinked.head, hlinked.next⟩, fun info hinfo => ?_⟩
    cases List.mem_append.mp hinfo with
    | inl hold => exact h.known info hold
    | inr hnew =>
      cases List.mem_singleton.mp hnew
      refine Option.isSome_iff_ne_none.mpr fun hcode => hfound ?_
      exact class_getInstanceMethod_eq_none h.linked h.known hcode

theorem swizzled_init (own : Own) : Swizzled (init own) own :=
  ⟨linked_init own, fun _ hinfo => absurd hinfo List.not_mem_nil⟩

end Runtime

/-- After any swizzlings, a message runs each hook on its way once, from the class of the receiver
up to the class that has the code, on each class the latest first, and then the code. A message
that no class knows runs nothing. -/
theorem message_runs_hooks_to_code (own : Own) (inputs : List Input) (r : Runtime)
    (run : exec Runtime.step (.init own) inputs = some r) (cls : Class) (sel : SEL) (fuel : Nat)
    (enough : r.infos.length < fuel) : r.send fuel cls sel = r.path own sel cls := by
  have halways : Always Runtime.step (fun r => r.Swizzled own) (.init own) inputs :=
    always_of_invariant (fun _ h => h) (fun _ _ _ => Runtime.Swizzled.step)
      (Runtime.swizzled_init own) inputs
  exact (halways.exec run).send_eq cls sel enough

/-- The root class has the method and its subclass does not. -/
def inheritedMethod : Own := fun cls sel => if cls = [0] ∧ sel = 1 then some 2 else none

/-- The subclass is swizzled before the root class. -/
def subclassFirst : List Input :=
  [⟨1, [3, 0], .oncePerClassAndSuperclasses, some 4⟩,
    ⟨1, [0], .oncePerClassAndSuperclasses, some 4⟩]

theorem message_runs_hooks_to_code_subclassFirst :
    ∃ r, exec Runtime.step (.init inheritedMethod) subclassFirst = some r ∧
      r.path inheritedMethod 1 [3, 0] = some [.block 0, .block 1, .code 2] ∧
      r.send 3 [3, 0] 1 = r.path inheritedMethod 1 [3, 0] :=
  ⟨_, rfl, rfl, message_runs_hooks_to_code inheritedMethod subclassFirst _ rfl [3, 0] 1 3
    (by decide)⟩

end SentryCocoa.Swizzle
