import SentryCocoa.ScopeSync

/-! The C scope has a ring of its own for the breadcrumbs: a fixed number of
slots instead of a growing array. Both rings move in lockstep, so a crash
report lists the breadcrumbs that the scope would return. -/
namespace SentryCocoa.Scope
open SentryCocoa.Foundation SentryCocoa.Library.Machine SentryCocoa.Library.RingBuffer

namespace SentryCrashScope

def ring (c : SentryCrashScope) : CyclicBuffer String :=
  ⟨fun i => ((c.breadcrumbs.getD [])[i]?).join, c.currentCrumb⟩

/-- The part of the C scope that belongs to the ring. -/
def crumbs (c : SentryCrashScope) : Option (List (Option String)) × Nat × Nat :=
  (c.breadcrumbs, c.maxCrumbs, c.currentCrumb)

/-- The slots are allocated and the current one is among them. -/
structure Configured (c : SentryCrashScope) (max : Nat) : Prop where
  maxCrumbs : c.maxCrumbs = max
  current_lt : c.currentCrumb < max
  slots : ∃ crumbs, c.breadcrumbs = some crumbs ∧ crumbs.length = max

theorem Configured.pos {c : SentryCrashScope} {max : Nat} (h : c.Configured max) : 0 < max :=
  Nat.lt_of_le_of_lt (Nat.zero_le _) h.current_lt

theorem Configured.of_crumbs_eq {c c' : SentryCrashScope} {max : Nat}
    (heq : c'.crumbs = c.crumbs) (h : c.Configured max) :
    c'.Configured max ∧ c'.ring = c.ring := by
  obtain ⟨hslots, hmax, hcurrent⟩ : c'.breadcrumbs = c.breadcrumbs ∧ c'.maxCrumbs = c.maxCrumbs ∧
      c'.currentCrumb = c.currentCrumb := by simpa [crumbs] using heq
  refine ⟨⟨hmax.trans h.maxCrumbs, ?_, ?_⟩, ?_⟩
  · rw [hcurrent]
    exact h.current_lt
  · rw [hslots]
    exact h.slots
  · rw [ring, ring, hslots, hcurrent]

private theorem ring_of_empty_slots (n : Nat) :
    (fun i : Nat => ((List.replicate n (none : Option String))[i]?).join) = fun _ => none := by
  funext i
  by_cases hi : i < n <;> simp [hi]

theorem configureBreadcrumbs_configured (c : SentryCrashScope) {max : Nat} (h : 0 < max) :
    (c.configureBreadcrumbs max).Configured max ∧
      (c.configureBreadcrumbs max).ring = CyclicBuffer.empty := by
  refine ⟨⟨rfl, h, _, rfl, List.length_replicate⟩, ?_⟩
  simp only [ring, configureBreadcrumbs, Option.getD_some, CyclicBuffer.empty, ring_of_empty_slots]

theorem Configured.addBreadcrumb {c : SentryCrashScope} {max : Nat} (h : c.Configured max)
    (json : String) :
    (c.addBreadcrumb (some json)).Configured max ∧
      (c.addBreadcrumb (some json)).ring = c.ring.push max json := by
  obtain ⟨crumbs, hcrumbs, hlength⟩ := h.slots
  have hpos := h.pos
  have hcurrent := h.current_lt
  have hadd : c.addBreadcrumb (some json) =
      { c with
        breadcrumbs := some (crumbs.set c.currentCrumb (some json))
        currentCrumb := (c.currentCrumb + 1) % max } := by
    rw [SentryCrashScope.addBreadcrumb, hcrumbs]
    simp only [h.maxCrumbs, if_neg (show ¬ max < 1 by omega)]
  rw [hadd]
  refine ⟨⟨h.maxCrumbs, Nat.mod_lt _ hpos, _, rfl, by rw [List.length_set, hlength]⟩, ?_⟩
  simp only [ring, hcrumbs, Option.getD_some, CyclicBuffer.push, CyclicBuffer.mk.injEq, and_true]
  funext i
  by_cases hi : i = c.currentCrumb
  · subst hi
    simp [hlength, hcurrent]
  · simp [hi, List.getElem?_set_ne (Ne.symm hi)]

theorem Configured.clearBreadcrumbs {c : SentryCrashScope} {max : Nat} (h : c.Configured max) :
    c.clearBreadcrumbs.Configured max ∧ c.clearBreadcrumbs.ring = CyclicBuffer.empty := by
  obtain ⟨crumbs, hcrumbs, hlength⟩ := h.slots
  have hclear : c.clearBreadcrumbs =
      { c with breadcrumbs := some (crumbs.map fun _ => none), currentCrumb := 0 } := by
    rw [SentryCrashScope.clearBreadcrumbs, hcrumbs]
    simp only [h.maxCrumbs, if_neg (show ¬ max < 1 from Nat.not_lt.mpr h.pos)]
  rw [hclear]
  refine ⟨⟨h.maxCrumbs, h.pos, _, rfl, by rw [List.length_map, hlength]⟩, ?_⟩
  simp only [ring, Option.getD_some, CyclicBuffer.empty, List.map_const', ring_of_empty_slots]

/-- The report writer reads the ring; its search for a first crumb decides nothing else. -/
theorem Configured.writtenCrumbs_eq_read {c : SentryCrashScope} {max : Nat}
    (h : c.Configured max) : c.writtenCrumbs = c.ring.read max := by
  obtain ⟨crumbs, hcrumbs, hlength⟩ := h.slots
  have hslots : ∀ i, c.ring.slots i = (crumbs[i]?).join := fun i => by simp [ring, hcrumbs]
  simp only [writtenCrumbs, hcrumbs, h.maxCrumbs]
  split
  · simp only [CyclicBuffer.read, hslots]
    rfl
  · rename_i hnone
    symm
    rw [CyclicBuffer.read, List.filterMap_eq_nil_iff]
    intro i _
    rw [hslots]
    by_contra hsome
    refine hnone (List.any_eq_true.mpr ⟨(c.currentCrumb + i) % max, ?_, ?_⟩)
    · exact List.mem_range.mpr (Nat.mod_lt _ h.pos)
    · exact Option.isSome_iff_ne_none.mpr hsome

end SentryCrashScope

variable {User Breadcrumb : Type} [SentrySerializable User] [SentrySerializable Breadcrumb]
variable {encode : Value → Option String}

theorem ScopeField.crumbs_set (f : ScopeField) (c : SentryCrashScope) (json : Option String) :
    (f.set c json).crumbs = c.crumbs := by
  cases f <;> rfl

theorem syncScope_crumbs {α : Type} (f : ScopeField) (object : Option α)
    (serialize : α → Option Value) (c : SentryCrashScope) :
    (SentryCrashScopeObserver.syncScope encode object serialize f.set c).crumbs = c.crumbs := by
  unfold SentryCrashScopeObserver.syncScope
  repeat' split
  all_goals first | exact f.crumbs_set c _ | rfl

/-- A message for a field leaves the ring as it is. -/
theorem receive_crumbs {message : SentryScopeObserver User} (target : message.target.isSome)
    (c : SentryCrashScope) :
    (SentryCrashScopeObserver.receive encode c message).crumbs = c.crumbs := by
  cases message with
  | setLevel level => cases level <;> exact ScopeField.level.crumbs_set c _
  | addSerializedBreadcrumb crumb => cases target
  | clearBreadcrumbs => cases target
  | clear => cases target
  | setUser user => exact syncScope_crumbs .user _ _ c
  | setTags tags => exact syncScope_crumbs .tags _ _ c
  | setExtras extras => exact syncScope_crumbs .extras _ _ c
  | setContext context => exact syncScope_crumbs .context _ _ c
  | setDist dist => exact syncScope_crumbs .dist _ _ c
  | setEnvironment environment => exact syncScope_crumbs .environment _ _ c
  | setFingerprint fingerprint => exact syncScope_crumbs .fingerprint _ _ c

theorem foldl_receive_crumbs {sent : List (SentryScopeObserver User)}
    (target : ∀ message ∈ sent, message.target.isSome) (c : SentryCrashScope) :
    (sent.foldl (SentryCrashScopeObserver.receive encode) c).crumbs = c.crumbs := by
  induction sent generalizing c with
  | nil => rfl
  | cons message rest ih =>
    rw [List.foldl_cons, ih fun m hm => target m (List.mem_cons_of_mem _ hm)]
    exact receive_crumbs (target message List.mem_cons_self) c

theorem SentryCrashScope.clear_crumbs (c : SentryCrashScope) :
    c.clear.crumbs = c.clearBreadcrumbs.crumbs := by
  obtain ⟨_, _, _, _, _, _, _, _, breadcrumbs, maxCrumbs, _⟩ := c
  cases breadcrumbs with
  | none => rfl
  | some slots =>
    by_cases hmax : maxCrumbs < 1 <;>
      simp [clear, clearBreadcrumbs, crumbs, setUser, setDist, setContext, setEnvironment, setTags,
        setExtras, setFingerprint, setLevel, hmax]

/-- Mutators of the other data touch neither ring. -/
theorem SentryScope.mutate_ring {s s' : SentryScope User Breadcrumb}
    {mutation : Mutation User Breadcrumb} {sent : List (SentryScopeObserver User)}
    (notAdd : ∀ crumb, mutation ≠ .addBreadcrumb crumb)
    (notClearBreadcrumbs : mutation ≠ .clearBreadcrumbs) (notClear : mutation ≠ .clear)
    (h : s.mutate mutation = some (s', sent)) :
    s'.ring = s.ring ∧ s'.maxBreadcrumbs = s.maxBreadcrumbs ∧
      ∀ message ∈ sent, message.target.isSome := by
  cases mutation with
  | addBreadcrumb crumb => exact absurd rfl (notAdd crumb)
  | clearBreadcrumbs => exact absurd rfl notClearBreadcrumbs
  | clear => exact absurd rfl notClear
  | setTags tags => cases tags <;> cases h <;> exact ⟨rfl, rfl, by simp [SentryScopeObserver.target]⟩
  | setExtras extras => cases extras <;> cases h <;> exact ⟨rfl, rfl, by simp [SentryScopeObserver.target]⟩
  | _ => cases h; exact ⟨rfl, rfl, by simp [SentryScopeObserver.target]⟩

/-- The text that the observer writes for a breadcrumb. -/
def crumbEncoding (encode : Value → Option String) (crumb : Breadcrumb) : Option String :=
  encode (.ofDictionary (serialize crumb))

/-- Slot by slot the C ring holds the encodings of the scope's ring. -/
structure MirroredScope.Lockstep (encode : Value → Option String)
    (m : MirroredScope User Breadcrumb) : Prop where
  filling : m.scope.ring.Filling m.scope.maxBreadcrumbs
  configured : m.crashScope.Configured m.scope.maxBreadcrumbs
  next : m.crashScope.currentCrumb = m.scope.currentBreadcrumbIndex
  slots : ∀ i, (m.crashScope.ring.slots i).map some =
    (m.scope.ring.slots i).map (crumbEncoding encode)

def AcceptsCrumb (encode : Value → Option String) (_ : MirroredScope User Breadcrumb) :
    Mutation User Breadcrumb → Prop
  | .addBreadcrumb crumb => (crumbEncoding encode crumb).isSome
  | _ => True

omit [SentrySerializable User] in
theorem MirroredScope.Lockstep.rings {m : MirroredScope User Breadcrumb} (h : m.Lockstep encode) :
    m.crashScope.ring.map some = m.scope.ring.map (crumbEncoding encode) := by
  have hnext : m.crashScope.ring.next = m.scope.ring.next := h.next
  simp only [CyclicBuffer.map, hnext, h.slots]

omit [SentrySerializable User] in
theorem MirroredScope.Lockstep.of_rings {m : MirroredScope User Breadcrumb}
    (filling : m.scope.ring.Filling m.scope.maxBreadcrumbs)
    (configured : m.crashScope.Configured m.scope.maxBreadcrumbs)
    (rings : m.crashScope.ring.map some = m.scope.ring.map (crumbEncoding encode)) :
    m.Lockstep encode where
  filling := filling
  configured := configured
  next := congrArg CyclicBuffer.next rings
  slots := congrFun (congrArg CyclicBuffer.slots rings)

omit [SentrySerializable User] in
/-- In lockstep, the report writer writes the encodings of what the scope returns. -/
theorem MirroredScope.Lockstep.writtenCrumbs {m : MirroredScope User Breadcrumb}
    (h : m.Lockstep encode) :
    m.crashScope.writtenCrumbs.map some = m.scope.breadcrumbs.map (crumbEncoding encode) := by
  rw [h.configured.writtenCrumbs_eq_read, ← CyclicBuffer.read_map, h.rings, CyclicBuffer.read_map]
  rfl

theorem MirroredScope.Lockstep.addBreadcrumb {m m' : MirroredScope User Breadcrumb}
    {crumb : Breadcrumb} (h : m.Lockstep encode) (accepts : (crumbEncoding encode crumb).isSome)
    (hstep : m.step encode (.addBreadcrumb crumb) = some m') : m'.Lockstep encode := by
  obtain ⟨sent, hadd, received⟩ := step_cases hstep
  obtain ⟨hring, hmax, rfl⟩ := SentryScope.addBreadcrumb_cases h.configured.pos hadd
  obtain ⟨json, hjson⟩ := Option.isSome_iff_exists.mp accepts
  have hcrash : m'.crashScope = m.crashScope.addBreadcrumb (some json) := by
    rw [received, List.foldl_cons, List.foldl_nil, SentryCrashScopeObserver.receive]
    rw [crumbEncoding] at hjson
    rw [hjson]
  obtain ⟨hconfigured, hcrashRing⟩ := h.configured.addBreadcrumb json
  refine .of_rings ?_ ?_ ?_
  · rw [hring, hmax]
    exact h.filling.push crumb
  · rw [hcrash, hmax]
    exact hconfigured
  · rw [hcrash, hcrashRing, hring, CyclicBuffer.map_push, CyclicBuffer.map_push, h.rings, hjson]

omit [SentrySerializable User] in
theorem MirroredScope.Lockstep.of_empty {m : MirroredScope User Breadcrumb}
    (configured : m.crashScope.Configured m.scope.maxBreadcrumbs)
    (ring : m.scope.ring = CyclicBuffer.empty) (crashRing : m.crashScope.ring = CyclicBuffer.empty) :
    m.Lockstep encode := by
  refine .of_rings ?_ configured ?_
  · rw [ring]
    exact .empty configured.pos
  · rw [ring, crashRing]
    rfl

theorem MirroredScope.Lockstep.step {m m' : MirroredScope User Breadcrumb}
    {mutation : Mutation User Breadcrumb} (h : m.Lockstep encode)
    (accepts : AcceptsCrumb encode m mutation) (hstep : m.step encode mutation = some m') :
    m'.Lockstep encode := by
  by_cases hadd : ∃ crumb, mutation = .addBreadcrumb crumb
  · obtain ⟨crumb, rfl⟩ := hadd
    exact h.addBreadcrumb accepts hstep
  by_cases hclearBreadcrumbs : mutation = .clearBreadcrumbs
  · subst hclearBreadcrumbs
    cases hstep
    obtain ⟨hconfigured, hring⟩ := h.configured.clearBreadcrumbs
    exact .of_empty hconfigured (by simp [SentryScope.ring, SentryScope.clearBreadcrumbs, CyclicBuffer.empty])
      hring
  by_cases hclear : mutation = .clear
  · subst hclear
    cases hstep
    obtain ⟨hconfigured, -⟩ := h.configured.clearBreadcrumbs
    obtain ⟨hagain, hring⟩ := hconfigured.clearBreadcrumbs
    obtain ⟨hconfigured', hring'⟩ :=
      hagain.of_crumbs_eq (SentryCrashScope.clear_crumbs m.crashScope.clearBreadcrumbs)
    exact .of_empty hconfigured'
      (by simp [SentryScope.ring, SentryScope.clear, SentryScope.clearBreadcrumbs, CyclicBuffer.empty])
      (hring'.trans hring)
  · obtain ⟨sent, hmutate, received⟩ := step_cases hstep
    obtain ⟨hring, hmax, targets⟩ := SentryScope.mutate_ring
      (fun crumb heq => hadd ⟨crumb, heq⟩) hclearBreadcrumbs hclear hmutate
    have hcrumbs : m'.crashScope.crumbs = m.crashScope.crumbs := by
      rw [received]
      exact foldl_receive_crumbs targets m.crashScope
    obtain ⟨hconfigured, hcrashRing⟩ := h.configured.of_crumbs_eq hcrumbs
    refine .of_rings ?_ ?_ ?_
    · rw [hring, hmax]
      exact h.filling
    · rw [hmax]
      exact hconfigured
    · rw [hcrashRing, hring]
      exact h.rings

omit [SentrySerializable User] in
theorem MirroredScope.Lockstep.init {maxBreadcrumbs : Nat} (h : 0 < maxBreadcrumbs)
    (crashScope : SentryCrashScope) :
    (MirroredScope.init maxBreadcrumbs crashScope : MirroredScope User Breadcrumb).Lockstep
      encode := by
  obtain ⟨hconfigured, hring⟩ := crashScope.configureBreadcrumbs_configured h
  exact .of_empty hconfigured rfl hring

/-- Once the observer has configured the C scope, a crash report lists the encodings of the
breadcrumbs that the scope returns, in the same order, in every state of a run. -/
theorem always_writtenCrumbs_eq (crashScope : SentryCrashScope) {maxBreadcrumbs : Nat}
    (room : 1 ≤ maxBreadcrumbs) {mutations : List (Mutation User Breadcrumb)}
    (accepted : ∀ crumb, .addBreadcrumb crumb ∈ mutations → (crumbEncoding encode crumb).isSome) :
    Always (MirroredScope.step encode)
      (fun m => m.crashScope.writtenCrumbs.map some = m.scope.breadcrumbs.map (crumbEncoding encode))
      (MirroredScope.init maxBreadcrumbs crashScope : MirroredScope User Breadcrumb) mutations := by
  have allowed : Allowed (MirroredScope.step encode) (AcceptsCrumb encode)
      (MirroredScope.init maxBreadcrumbs crashScope) mutations := by
    refine .of_forall fun mutation hmem m => ?_
    cases mutation with
    | addBreadcrumb crumb => exact accepted crumb hmem
    | _ => trivial
  have start : (MirroredScope.init maxBreadcrumbs crashScope :
      MirroredScope User Breadcrumb).Lockstep encode := .init room crashScope
  exact always_of_allowed (fun _ => MirroredScope.Lockstep.writtenCrumbs)
    (fun _ _ _ h accepts hstep => h.step accepts hstep) start allowed

def encodeMessage : Value → Option String
  | .dictionary [("message", .string text)] => some ("\x7b\"message\":\"" ++ text ++ "\"\x7d")
  | _ => none

theorem always_writtenCrumbs_two :
    Always (MirroredScope.step encodeMessage)
      (fun m => m.crashScope.writtenCrumbs.map some =
        m.scope.breadcrumbs.map (crumbEncoding encodeMessage))
      (MirroredScope.init 2 .zero : MirroredScope String String)
      [.addBreadcrumb "a", .addBreadcrumb "b", .addBreadcrumb "c", .clearBreadcrumbs] :=
  always_writtenCrumbs_eq .zero (by decide) fun _ _ => rfl

end SentryCocoa.Scope
