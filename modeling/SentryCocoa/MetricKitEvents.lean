import SentryCocoa.MetricKitVisits

/-! The events of a MetricKit call stack. There should be one for each leaf that is the last of
its siblings, in depth-first order. If the addresses in a tree are distinct, the loop is right if
and only if no list of sub frames goes on with an inner frame after its last leaf. -/
namespace SentryCocoa.MetricKit
open SentryMXFrame (flattenedFrames)
open Relation (ReflTransGen)
open Traversal

/-- The loop ends without an exception, and the events of each root are those of its last
leaves. -/
def CapturesLastLeaves (isInApp : Option String → Bool) (params : SentryMXExceptionParams)
    (callStackTree : SentryMXCallStackTree) : Prop :=
  ∃ fuel events, captureMXEvent isInApp params fuel callStackTree = some (.ok events) ∧
    List.Forall₂ (List.Forall₂ (Describes isInApp)) events
      (callStackTree.rootFrames.map SentryMXFrame.lastLeaves)

/-! ## Addresses in events -/

theorem convertMXFrame_injective {isInApp : Option String → Bool} {frame other : SentryMXFrame}
    (h : convertMXFrame isInApp frame = convertMXFrame isInApp other) :
    frame.address = other.address := by
  have haddress : Profiling.sentry_formatHexAddressUInt64 frame.address =
      Profiling.sentry_formatHexAddressUInt64 other.address :=
    congrArg SentryFrame.instructionAddress h
  rw [← Profiling.address_format frame.address, haddress, Profiling.address_format]

section

variable {isInApp : Option String → Bool} {params : SentryMXExceptionParams}
variable {traversal : Traversal}

theorem captured_prefix {events : List SentryEvent}
    (h : Ends isInApp params traversal (.ok events)) : traversal.captured <+: events := by
  obtain ⟨fuel, hrun⟩ := h
  induction fuel generalizing traversal with
  | zero => cases hrun
  | succ fuel ih =>
    rw [run] at hrun
    split at hrun
    · cases hrun
      exact List.prefix_refl _
    · next currentFrame rest hframes =>
      split at hrun
      · next after hround =>
        refine List.IsPrefix.trans ?_ (ih hrun)
        rcases iterate_cases hframes hround with
          ⟨frame, -, rfl⟩ | ⟨-, -, rfl⟩ | ⟨-, -, -, rfl⟩
        · exact List.prefix_refl _
        · exact List.prefix_refl _
        · exact List.prefix_append _ _
      · cases hrun

/-- The event of a wrong leaf ends in that leaf. -/
theorem exists_event_of_wrongLeaf {root : SentryMXFrame} {events : List SentryEvent}
    (hwrong : WrongLeaf root traversal) (h : Ends isInApp params traversal (.ok events)) :
    ∃ event ∈ events, ∃ leaf, (∃ stacktrace ∈ event.stacktraces,
      stacktrace.getLast? = some (convertMXFrame isInApp leaf)) ∧ leaf.subFrames = [] ∧
      ∃ parent ∈ root.framesIncludingSelf, leaf ∈ parent.subFrames.dropLast := by
  obtain ⟨leaf, rest, hframes, hleaf, hnext, hparent⟩ := hwrong
  have hround : traversal.iterate isInApp params leaf = _ := iterate_capture hleaf hnext
  cases hpop : removeLastObjects (traversal.popCount leaf) traversal.stackTraceFrames with
  | ok frames =>
    rw [hpop] at hround
    have hrest := captured_prefix ((Round.ends_iff ⟨leaf, rest, hframes, hround⟩).1 h)
    refine ⟨_, hrest.subset (List.mem_append_right _ List.mem_cons_self), leaf,
      ⟨convertMXFramesToSentryStacktrace isInApp traversal.stackTraceFrames.reverse,
        List.mem_cons_self, ?_⟩, hleaf, hparent⟩
    simp [hframes, convertMXFramesToSentryStacktrace]
  | error exception =>
    rw [hpop] at hround
    obtain ⟨fuel, hrun⟩ := h
    cases fuel with
    | zero => cases hrun
    | succ fuel =>
      rw [run, hframes] at hrun
      simp only [hround] at hrun
      cases hrun

theorem exists_of_mem_left {α β : Type} {R : α → β → Prop} {first : List α} {second : List β}
    (h : List.Forall₂ R first second) {a : α} (ha : a ∈ first) : ∃ b ∈ second, R a b := by
  induction h with
  | nil => exact absurd ha List.not_mem_nil
  | cons hab _ ih =>
    rcases List.mem_cons.1 ha with rfl | hrest
    · exact ⟨_, List.mem_cons_self, hab⟩
    · obtain ⟨b, hb, hR⟩ := ih hrest
      exact ⟨b, List.mem_cons_of_mem _ hb, hR⟩

/-! ## Roots -/

/-- The loop ends and the events are those of the last leaves. -/
def RootCaptured (isInApp : Option String → Bool) (params : SentryMXExceptionParams)
    (root : SentryMXFrame) : Prop :=
  ∃ events, Ends isInApp params (init root) (.ok events) ∧
    List.Forall₂ (Describes isInApp) events root.lastLeaves

theorem not_rootCaptured_of_wrongLeaf {root : SentryMXFrame}
    (hdistinct : (root.framesIncludingSelf.map SentryMXFrame.address).Nodup)
    (hwrong : ReachesWrongLeaf isInApp params root (init root)) :
    ¬ RootCaptured isInApp params root := by
  rintro ⟨events, hends, hevents⟩
  obtain ⟨after, hrounds, hwrong⟩ := hwrong
  obtain ⟨event, hevent, leaf, ⟨stacktrace, hstacktrace, hlast⟩, hleaf, parent, hparent, hmem⟩ :=
    exists_event_of_wrongLeaf hwrong ((ends_iff_of_rounds hrounds).1 hends)
  obtain ⟨last, hlastMem, hdescribes⟩ := exists_of_mem_left hevents hevent
  have hsame := hlast.symm.trans (hdescribes stacktrace hstacktrace).1
  exact address_ne_of_wrong hdistinct hparent hmem hleaf last hlastMem
    (convertMXFrame_injective (Option.some.inj hsame)).symm

theorem rootCaptured_of_leaf {root : SentryMXFrame} (hleaf : root.subFrames = []) :
    RootCaptured isInApp params root := by
  have hnext : (init root).next root = none := by
    rw [next, siblings, parentFrame, setParentFrame_apply, hleaf]
    rfl
  have hround : (init root).iterate isInApp params root = _ := iterate_capture hleaf hnext
  have hcount : (init root).popCount root = 1 := by
    rw [popCount, parentFrame, setParentFrame_apply, hleaf]
    rfl
  rw [hcount] at hround
  refine ⟨[captureEventNotPerThread isInApp params [root].reverse], ?_, ?_⟩
  · exact (Round.ends_iff ⟨root, [], rfl, hround⟩).2 ⟨1, rfl⟩
  · rw [SentryMXFrame.lastLeaves, leaves_of_leaf hleaf]
    have hroot : (Leaf.mk [] root true).ancestors.Sublist [] := List.nil_sublist _
    exact .cons (describes_capture hroot) .nil

theorem rootCaptured_of_visit {root : SentryMXFrame} (hinner : root.subFrames ≠ [])
    (hdistinct : (root.address :: addresses root.subFrames).Nodup) {after : Traversal}
    {events : List SentryEvent} (hafter : after.stackTraceFrames = [root])
    (hvisit : Visit isInApp params (init root) after (addresses root.subFrames)
      (addresses root.subFrames) events)
    (hevents : List.Forall₂ (Describes isInApp) events root.lastLeaves) :
    RootCaptured isInApp params root := by
  obtain ⟨hself, -⟩ := List.nodup_cons.1 hdistinct
  have hnext : after.next root = none := by
    apply next_eq_none hafter
    · intro other hother
      exact (hvisit.seen _).2 (.inr (address_mem_addresses hother))
    · intro parent hparent
      rw [parentFrame_eq fun h => hself (map_address_subset _ _ h), hvisit.parents _ hself] at hparent
      cases hparent
  have hround : after.iterate isInApp params root = _ := iterate_pop hinner hnext hafter
  refine ⟨events, ?_, hevents⟩
  refine (ends_iff_of_rounds hvisit.rounds).2 ((Round.ends_iff ⟨root, [], hafter, hround⟩).2 ⟨1, ?_⟩)
  rw [run]
  exact congrArg (fun captured => some (Except.ok captured)) hvisit.captured

theorem rootCaptured_iff {root : SentryMXFrame}
    (hdistinct : (root.framesIncludingSelf.map SentryMXFrame.address).Nodup) :
    RootCaptured isInApp params root ↔ LeavesLast root := by
  by_cases hleaf : root.subFrames = []
  · exact iff_of_true (rootCaptured_of_leaf hleaf) (leavesLast_of_leaf hleaf)
  · have hnodup : (root.address :: addresses root.subFrames).Nodup := by
      rw [root.framesIncludingSelf_eq] at hdistinct
      exact hdistinct
    have hfresh : ∀ address ∈ addresses root.subFrames, address ∉ (init root).seen := by
      intro address haddress h
      rw [@seen_eq (init root) root [] rfl] at h
      rw [List.mem_singleton.1 h] at haddress
      exact (List.nodup_cons.1 hnodup).1 haddress
    rcases @visitsBelow isInApp params root hleaf hnodup (init root) [] rfl hfresh with
      ⟨hgood, after, events, hafter, hvisit, hevents⟩ | ⟨hbad, hwrong⟩
    · exact iff_of_true (rootCaptured_of_visit hleaf hnodup hafter hvisit
        (hevents [] true (List.nil_sublist _))) hgood
    · exact iff_of_false (not_rootCaptured_of_wrongLeaf hdistinct hwrong) hbad

theorem buildAndCaptureMXEventFor_mono {fuel fuel' : Nat} (hfuel : fuel ≤ fuel')
    {rootFrames : List SentryMXFrame} {result : Except NSException (List (List SentryEvent))}
    (h : buildAndCaptureMXEventFor isInApp params fuel rootFrames = some result) :
    buildAndCaptureMXEventFor isInApp params fuel' rootFrames = some result := by
  induction rootFrames generalizing result with
  | nil => exact h
  | cons root rest ih =>
    rw [buildAndCaptureMXEventFor] at h ⊢
    cases hrun : (init root).run isInApp params fuel with
    | none =>
      rw [hrun] at h
      cases h
    | some outcome =>
      rw [hrun] at h
      rw [run_mono hfuel hrun]
      cases outcome with
      | error exception => exact h
      | ok events =>
        obtain ⟨groups, hgroups, rfl⟩ := Option.map_eq_some_iff.1 h
        exact Option.map_eq_some_iff.2 ⟨groups, ih hgroups, rfl⟩

theorem buildAndCaptureMXEventFor_iff (rootFrames : List SentryMXFrame) :
    (∃ fuel events, buildAndCaptureMXEventFor isInApp params fuel rootFrames = some (.ok events) ∧
      List.Forall₂ (List.Forall₂ (Describes isInApp)) events
        (rootFrames.map SentryMXFrame.lastLeaves)) ↔
    ∀ root ∈ rootFrames, RootCaptured isInApp params root := by
  induction rootFrames with
  | nil =>
    exact iff_of_true ⟨0, [], rfl, .nil⟩ fun _ h => absurd h List.not_mem_nil
  | cons root rest ih =>
    rw [List.forall_mem_cons, ← ih]
    constructor
    · rintro ⟨fuel, groups, hgroups, hall⟩
      rw [buildAndCaptureMXEventFor] at hgroups
      cases hrun : (init root).run isInApp params fuel with
      | none =>
        rw [hrun] at hgroups
        cases hgroups
      | some outcome =>
        rw [hrun] at hgroups
        cases outcome with
        | error exception => cases hgroups
        | ok events =>
          obtain ⟨result, hresult, hmap⟩ := Option.map_eq_some_iff.1 hgroups
          cases result with
          | error exception => cases hmap
          | ok later =>
            cases hmap
            rw [List.map_cons, List.forall₂_cons] at hall
            exact ⟨⟨events, ⟨fuel, hrun⟩, hall.1⟩, fuel, later, hresult, hall.2⟩
    · rintro ⟨⟨events, ⟨fuel, hrun⟩, hevents⟩, fuel', groups, hgroups, hall⟩
      refine ⟨max fuel fuel', events :: groups, ?_, .cons hevents hall⟩
      rw [buildAndCaptureMXEventFor, run_mono (Nat.le_max_left _ _) hrun]
      exact Option.map_eq_some_iff.2
        ⟨_, buildAndCaptureMXEventFor_mono (Nat.le_max_right _ _) hgroups, rfl⟩

/-! ## Repeated addresses -/

/-- No address is twice on the list, and none ends two stack traces. -/
structure Recorded (isInApp : Option String → Bool) (params : SentryMXExceptionParams)
    (traversal : Traversal) (captures : List (SentryMXFrame × List SentryMXFrame)) : Prop where
  captured : traversal.captured = captures.map fun frames =>
    captureEventNotPerThread isInApp params (frames.1 :: frames.2).reverse
  frames : ∀ frames ∈ captures, ((frames.1 :: frames.2).map SentryMXFrame.address).Nodup
  distinct : (captures.map (fun frames => frames.1.address) ++
    traversal.stackTraceFrames.map SentryMXFrame.address).Nodup
  seen : ∀ address ∈ captures.map (fun frames => frames.1.address) ++
    traversal.stackTraceFrames.map SentryMXFrame.address, address ∈ traversal.seen

theorem recorded_init (root : SentryMXFrame) : Recorded isInApp params (init root) [] where
  captured := rfl
  frames _ h := absurd h List.not_mem_nil
  distinct := List.nodup_singleton root.address
  seen address h := by
    rw [@seen_eq (init root) root [] rfl]
    exact h

/-- What was seen stays seen. -/
theorem seen_subset_mark {currentFrame : SentryMXFrame} {rest frames : List SentryMXFrame}
    {captured : List SentryEvent} (hframes : traversal.stackTraceFrames = currentFrame :: rest) :
    ∀ address ∈ traversal.seen, address ∈ Traversal.seen { traversal.mark currentFrame with
      stackTraceFrames := frames, captured } := by
  intro address h
  rw [seen_eq hframes] at h
  exact List.mem_append_right _ h

theorem Recorded.iterate {root currentFrame : SentryMXFrame} {rest : List SentryMXFrame}
    {captures : List (SentryMXFrame × List SentryMXFrame)} {after : Traversal}
    (h : Recorded isInApp params traversal captures) (hwithin : Within root traversal)
    (hframes : traversal.stackTraceFrames = currentFrame :: rest)
    (hround : traversal.iterate isInApp params currentFrame = .ok after) :
    ∃ captures', Recorded isInApp params after captures' := by
  have hdistinct := h.distinct
  have hseen := h.seen
  rw [hframes] at hdistinct hseen
  rcases iterate_cases hframes hround with
    ⟨frame, hnext, rfl⟩ | ⟨-, -, rfl⟩ | ⟨-, -, -, rfl⟩
  · have hnew : frame.address ∉ traversal.seen := by
      rw [seen_eq hframes]
      exact (next_eq_some hnext).1
    refine ⟨captures, h.captured, h.frames, ?_, ?_⟩
    · rw [List.map_cons, List.nodup_middle, List.nodup_cons]
      exact ⟨fun hmem => hnew (h.seen _ hmem), h.distinct⟩
    · intro address haddress
      rw [List.map_cons, List.perm_middle.mem_iff] at haddress
      rcases List.mem_cons.1 haddress with rfl | hmem
      · exact List.mem_append_left _ List.mem_cons_self
      · exact seen_subset_mark hframes _ (h.seen address hmem)
  · have hsublist := List.Sublist.append_left ((List.sublist_cons_self currentFrame rest).map
      SentryMXFrame.address) (captures.map fun frames => frames.1.address)
    refine ⟨captures, h.captured, h.frames, hdistinct.sublist hsublist, fun address haddress => ?_⟩
    exact seen_subset_mark hframes _ (hseen address (hsublist.subset haddress))
  · obtain ⟨count, hcount⟩ : ∃ count, traversal.popCount currentFrame = count + 1 :=
      Nat.exists_eq_succ_of_ne_zero (Nat.pos_iff_ne_zero.1 (hwithin.popCount_pos
        (hwithin.frames currentFrame (by rw [hframes]; exact List.mem_cons_self))))
    have hsublist : (captures.map (fun frames => frames.1.address) ++
        currentFrame.address :: (rest.drop count).map SentryMXFrame.address).Sublist
        (captures.map (fun frames => frames.1.address) ++
          (currentFrame :: rest).map SentryMXFrame.address) :=
      List.Sublist.append_left (((List.drop_sublist count rest).map _).cons_cons _) _
    refine ⟨captures ++ [(currentFrame, rest)], ?_, ?_, ?_, ?_⟩
    · rw [List.map_append, ← h.captured, hframes]
      rfl
    · intro frames hmem
      rcases List.mem_append.1 hmem with hmem | hmem
      · exact h.frames frames hmem
      · rw [List.mem_singleton.1 hmem]
        exact (List.nodup_append'.1 hdistinct).2.1
    · rw [hframes, hcount, List.map_append, List.append_assoc]
      exact hdistinct.sublist hsublist
    · intro address haddress
      rw [hframes, hcount, List.map_append, List.append_assoc] at haddress
      exact seen_subset_mark hframes _ (hseen address (hsublist.subset haddress))

theorem Recorded.ends {root : SentryMXFrame}
    {captures : List (SentryMXFrame × List SentryMXFrame)} {events : List SentryEvent}
    (h : Recorded isInApp params traversal captures) (hwithin : Within root traversal)
    (hends : Ends isInApp params traversal (.ok events)) :
    ∃ captures : List (SentryMXFrame × List SentryMXFrame),
      events = captures.map (fun frames =>
        captureEventNotPerThread isInApp params (frames.1 :: frames.2).reverse) ∧
      (∀ frames ∈ captures, ((frames.1 :: frames.2).map SentryMXFrame.address).Nodup) ∧
      (captures.map fun frames => frames.1.address).Nodup := by
  obtain ⟨fuel, hrun⟩ := hends
  induction fuel generalizing traversal captures with
  | zero => cases hrun
  | succ fuel ih =>
    rw [run] at hrun
    split at hrun
    · cases hrun
      exact ⟨captures, h.captured, h.frames, (List.nodup_append'.1 h.distinct).1⟩
    · next currentFrame rest hframes =>
      split at hrun
      · next after hround =>
        obtain ⟨captures', hafter⟩ := h.iterate hwithin hframes hround
        exact ih hafter (hwithin.iterate hframes hround) hrun
      · cases hrun

theorem instructionAddress_injective :
    Function.Injective Profiling.sentry_formatHexAddressUInt64 := by
  intro address other h
  rw [← Profiling.address_format address, h, Profiling.address_format]

/-- An event for a leaf ends in its address, and its stack trace has no address twice only if the
path of the leaf has none. -/
theorem Describes.addresses {frame : SentryMXFrame} {rest : List SentryMXFrame} {leaf : Leaf}
    (h : Describes isInApp (captureEventNotPerThread isInApp params (frame :: rest).reverse) leaf)
    (hnodup : ((frame :: rest).map SentryMXFrame.address).Nodup) :
    frame.address = leaf.frame.address ∧ (leaf.path.map SentryMXFrame.address).Nodup := by
  obtain ⟨hlast, hpath⟩ := h _ List.mem_cons_self
  constructor
  · have hframe : some (convertMXFrame isInApp frame) = some (convertMXFrame isInApp leaf.frame) :=
      (by simp [convertMXFramesToSentryStacktrace] :
        (convertMXFramesToSentryStacktrace isInApp (frame :: rest).reverse).getLast? = _).symm.trans
        hlast
    exact convertMXFrame_injective (Option.some.inj hframe)
  · obtain ⟨found, hperm, hsublist⟩ := hpath
    have hall : (((frame :: rest).reverse.map (convertMXFrame isInApp)).map
        SentryFrame.instructionAddress).Nodup := by
      have hreverse := (List.nodup_reverse.2 hnodup).map instructionAddress_injective
      rw [← List.map_reverse, List.map_map] at hreverse
      rw [List.map_map]
      exact hreverse
    have hleaf := ((hperm.map SentryFrame.instructionAddress).nodup_iff).1
      (hall.sublist (hsublist.map SentryFrame.instructionAddress))
    rw [List.map_map] at hleaf
    refine List.Nodup.of_map Profiling.sentry_formatHexAddressUInt64 ?_
    rw [List.map_map]
    exact hleaf

/-- If the events are right no address ends two of the stack traces and none is twice on the way
to a leaf. -/
theorem RootCaptured.addresses {root : SentryMXFrame} (h : RootCaptured isInApp params root) :
    (root.lastLeaves.map fun leaf => leaf.frame.address).Nodup ∧
      ∀ leaf ∈ root.lastLeaves, (leaf.path.map SentryMXFrame.address).Nodup := by
  obtain ⟨events, hends, hevents⟩ := h
  obtain ⟨captures, rfl, hframes, hheads⟩ :=
    (recorded_init root).ends (within_init root) hends
  have hmatch : ∀ leaves, List.Forall₂ (fun frames leaf => Describes isInApp
        (captureEventNotPerThread isInApp params (frames.1 :: frames.2).reverse) leaf)
        captures leaves →
      captures.map (fun frames => frames.1.address) =
        leaves.map (fun leaf => leaf.frame.address) ∧
      ∀ leaf ∈ leaves, (leaf.path.map SentryMXFrame.address).Nodup := by
    intro leaves hleaves
    clear hheads hends hevents
    induction hleaves with
    | nil => exact ⟨rfl, fun _ h => absurd h List.not_mem_nil⟩
    | cons hfirst _ ih =>
      rw [List.forall_mem_cons] at hframes
      have hpath := hfirst.addresses hframes.1
      have hrest := ih hframes.2
      rw [List.map_cons, List.map_cons, hpath.1, hrest.1]
      exact ⟨rfl, List.forall_mem_cons.2 ⟨hpath.2, hrest.2⟩⟩
  have hleaves := hmatch root.lastLeaves (List.forall₂_map_left_iff.1 hevents)
  exact ⟨hleaves.1 ▸ hheads, hleaves.2⟩

end

/-! ## Trees -/

/-- The loop ends for every tree. With distinct addresses in the tree of each root it captures the
events of the last leaves if and only if every list of sub frames with a leaf ends in a leaf. With
repeated ones it never does so when an address is twice on the way to a last leaf, as in a
recursion, or two last leaves share it. -/
theorem capturesLastLeaves_iff_leavesLast (isInApp : Option String → Bool)
    (params : SentryMXExceptionParams) (callStackTree : SentryMXCallStackTree) :
    (∃ fuel, captureMXEvent isInApp params fuel callStackTree ≠ none) ∧
    ((∀ root ∈ callStackTree.rootFrames,
        (root.framesIncludingSelf.map SentryMXFrame.address).Nodup) →
      (CapturesLastLeaves isInApp params callStackTree ↔
        ∀ root ∈ callStackTree.rootFrames, LeavesLast root)) ∧
    (CapturesLastLeaves isInApp params callStackTree → ∀ root ∈ callStackTree.rootFrames,
      (root.lastLeaves.map fun leaf => leaf.frame.address).Nodup ∧
        ∀ leaf ∈ root.lastLeaves, (leaf.path.map SentryMXFrame.address).Nodup) := by
  have hroots : CapturesLastLeaves isInApp params callStackTree ↔
      ∀ root ∈ callStackTree.rootFrames, RootCaptured isInApp params root :=
    buildAndCaptureMXEventFor_iff callStackTree.rootFrames
  rw [hroots]
  refine ⟨captureMXEvent_terminates isInApp params callStackTree, fun hdistinct => ?_,
    fun h root hroot => (h root hroot).addresses⟩
  exact forall₂_congr fun root hroot => rootCaptured_iff (hdistinct root hroot)

/-- A root with a leaf and then an inner frame: there is an event for the first leaf too. -/
def leafBeforeInner : SentryMXFrame :=
  let binary : MXBinary := ⟨"F9CC0C6E-3F1C-3F5A-8F1D-5A7A1E6E8B1F", 0, some "Sentry"⟩
  .mk binary 0x1000 [.mk binary 0x2000 [], .mk binary 0x3000 [.mk binary 0x4000 []]]

theorem not_capturesLastLeaves_leafBeforeInner :
    ¬ CapturesLastLeaves (fun _ => false)
      ⟨true, .warning, "MXCPUException", "MXCPUException", "mx_cpu_exception", ⟨0⟩⟩
      ⟨[⟨[leafBeforeInner]⟩]⟩ := by
  intro h
  have hroot := (buildAndCaptureMXEventFor_iff _).1 h leafBeforeInner List.mem_cons_self
  have hleaves := (rootCaptured_iff (by decide)).1 hroot leafBeforeInner
    leafBeforeInner.mem_framesIncludingSelf
  obtain ⟨last, hlast, hleaf⟩ := hleaves ⟨_, List.mem_cons_self, rfl⟩
  cases hlast
  cases hleaf

end SentryCocoa.MetricKit
