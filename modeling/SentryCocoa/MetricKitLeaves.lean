import SentryCocoa.MetricKitTraversal
import Mathlib.Data.List.Perm.Subperm

/-! The leaves of a MetricKit call stack in depth-first order, and the addresses in it. An event
should be captured for each leaf that is the last of its siblings. -/
namespace SentryCocoa.MetricKit
open SentryMXFrame (flattenedFrames)

/-- A leaf of a tree, with the frames above it. -/
structure Leaf where
  ancestors : List SentryMXFrame
  frame : SentryMXFrame
  lastSibling : Bool

mutual

/-- The leaves in depth-first order. -/
def SentryMXFrame.leaves (ancestors : List SentryMXFrame) (lastSibling : Bool) :
    SentryMXFrame → List Leaf
  | .mk binary address [] => [⟨ancestors, .mk binary address [], lastSibling⟩]
  | .mk binary address (first :: rest) =>
    leavesOf (.mk binary address (first :: rest) :: ancestors) (first :: rest)

def leavesOf (ancestors : List SentryMXFrame) : List SentryMXFrame → List Leaf
  | [] => []
  | frame :: rest => frame.leaves ancestors rest.isEmpty ++ leavesOf ancestors rest

end

/-- The leaves that are the last of their siblings; a root without sub frames is one. -/
def SentryMXFrame.lastLeaves (root : SentryMXFrame) : List Leaf :=
  (root.leaves [] true).filter Leaf.lastSibling

/-- The leaf and its ancestors. -/
def Leaf.path (leaf : Leaf) : List SentryMXFrame := leaf.frame :: leaf.ancestors

/-- The stack traces of the event end in the leaf and have all of its ancestors. -/
def Describes (isInApp : Option String → Bool) (event : SentryEvent) (leaf : Leaf) : Prop :=
  ∀ stacktrace ∈ event.stacktraces, stacktrace.getLast? = some (convertMXFrame isInApp leaf.frame) ∧
    (leaf.path.map (convertMXFrame isInApp)).Subperm stacktrace

/-- If there is a leaf, the last frame is one. -/
def EndsInLeaf (frames : List SentryMXFrame) : Prop :=
  (∃ frame ∈ frames, frame.subFrames = []) → ∃ frame, frames.getLast? = some frame ∧
    frame.subFrames = []

def LeavesLast (root : SentryMXFrame) : Prop :=
  ∀ frame ∈ root.framesIncludingSelf, EndsInLeaf frame.subFrames

/-! ## Addresses -/

/-- The addresses of the frames and of all those below them. -/
def addresses (frames : List SentryMXFrame) : List UInt64 :=
  (flattenedFrames frames).map SentryMXFrame.address

@[simp] theorem addresses_nil : addresses [] = [] := rfl

theorem addresses_cons (frame : SentryMXFrame) (rest : List SentryMXFrame) :
    addresses (frame :: rest) = frame.address :: addresses frame.subFrames ++ addresses rest := by
  rw [addresses, SentryMXFrame.flattenedFrames, frame.framesIncludingSelf_eq, List.map_append,
    List.map_cons]
  rfl

theorem addresses_append (before after : List SentryMXFrame) :
    addresses (before ++ after) = addresses before ++ addresses after := by
  induction before with
  | nil => rfl
  | cons first rest ih => rw [List.cons_append, addresses_cons, addresses_cons, ih,
      List.append_assoc]

theorem address_mem_addresses {frame : SentryMXFrame} {frames : List SentryMXFrame}
    (h : frame ∈ frames) : frame.address ∈ addresses frames :=
  List.mem_map_of_mem (SentryMXFrame.mem_flattenedFrames.2
    ⟨frame, h, frame.mem_framesIncludingSelf⟩)

theorem map_address_subset (frames : List SentryMXFrame) :
    ∀ address ∈ frames.map SentryMXFrame.address, address ∈ addresses frames := by
  intro address haddress
  obtain ⟨frame, hframe, rfl⟩ := List.mem_map.1 haddress
  exact address_mem_addresses hframe

theorem addresses_subFrames_subset {frame : SentryMXFrame} {frames : List SentryMXFrame}
    (h : frame ∈ frames) : ∀ address ∈ addresses frame.subFrames, address ∈ addresses frames := by
  intro address haddress
  obtain ⟨before, after, rfl⟩ := List.append_of_mem h
  rw [addresses_append, addresses_cons]
  exact List.mem_append_right _ (List.mem_cons_of_mem _ (List.mem_append_left _ haddress))

/-- With distinct addresses a frame is not below one of its siblings. -/
theorem address_notMem_below {frames : List SentryMXFrame} (h : (addresses frames).Nodup)
    {frame other : SentryMXFrame} (hframe : frame ∈ frames) (hother : other ∈ frames) :
    other.address ∉ addresses frame.subFrames := by
  obtain ⟨before, after, rfl⟩ := List.append_of_mem hframe
  rw [addresses_append, addresses_cons, List.nodup_append'] at h
  obtain ⟨-, hafter, hdisjoint⟩ := h
  intro hbelow
  rcases List.mem_append.1 hother with hbefore | hother
  · exact hdisjoint (address_mem_addresses hbefore)
      (List.mem_cons_of_mem _ (List.mem_append_left _ hbelow))
  · rw [List.cons_append, List.nodup_cons, List.nodup_append'] at hafter
    rcases List.mem_cons.1 hother with rfl | hother
    · exact hafter.1 (List.mem_append_left _ hbelow)
    · exact hafter.2.2.2 hbelow (address_mem_addresses hother)

theorem leavesLast_iff (frame : SentryMXFrame) :
    LeavesLast frame ↔ EndsInLeaf frame.subFrames ∧ ∀ subFrame ∈ frame.subFrames,
      LeavesLast subFrame := by
  unfold LeavesLast
  rw [frame.framesIncludingSelf_eq, List.forall_mem_cons]
  refine and_congr_right fun _ => ⟨fun h subFrame hsub other hother => ?_, fun h other hother => ?_⟩
  · exact h other (SentryMXFrame.mem_flattenedFrames.2 ⟨subFrame, hsub, hother⟩)
  · obtain ⟨subFrame, hsub, hother⟩ := SentryMXFrame.mem_flattenedFrames.1 hother
    exact h subFrame hsub other hother

/-! ## Leaves -/

theorem leaves_of_leaf {frame : SentryMXFrame} (h : frame.subFrames = [])
    (ancestors : List SentryMXFrame) (lastSibling : Bool) :
    frame.leaves ancestors lastSibling = [⟨ancestors, frame, lastSibling⟩] := by
  cases frame with
  | mk binary address subFrames =>
    cases h
    rw [SentryMXFrame.leaves]

theorem leaves_of_inner {frame : SentryMXFrame} (h : frame.subFrames ≠ [])
    (ancestors : List SentryMXFrame) (lastSibling : Bool) :
    frame.leaves ancestors lastSibling = leavesOf (frame :: ancestors) frame.subFrames := by
  cases frame with
  | mk binary address subFrames =>
    cases subFrames with
    | nil => exact absurd rfl h
    | cons first rest => rw [SentryMXFrame.leaves, SentryMXFrame.subFrames]

theorem endsInLeaf_leaf {frames : List SentryMXFrame} {frame : SentryMXFrame}
    (h : frame.subFrames = []) : EndsInLeaf (frames ++ [frame]) :=
  fun _ => ⟨frame, by simp, h⟩

theorem endsInLeaf_inner {frames : List SentryMXFrame} {frame : SentryMXFrame}
    (h : frame.subFrames ≠ []) :
    EndsInLeaf (frames ++ [frame]) ↔ ∀ other ∈ frames, other.subFrames ≠ [] := by
  constructor
  · intro hends other hother hleaf
    obtain ⟨last, hlast, hlastLeaf⟩ := hends ⟨other, List.mem_append_left _ hother, hleaf⟩
    rw [List.getLast?_concat] at hlast
    cases hlast
    exact h hlastLeaf
  · rintro hframes ⟨other, hother, hleaf⟩
    rcases List.mem_append.1 hother with hmem | hmem
    · exact absurd hleaf (hframes other hmem)
    · rw [List.mem_singleton.1 hmem] at hleaf
      exact absurd hleaf h

theorem leavesLast_of_leaf {frame : SentryMXFrame} (hleaf : frame.subFrames = []) :
    LeavesLast frame := by
  rw [leavesLast_iff, hleaf]
  exact ⟨fun ⟨_, h, _⟩ => absurd h List.not_mem_nil, fun _ h => absurd h List.not_mem_nil⟩

theorem mem_leavesOf {ancestors before later : List SentryMXFrame} {frame : SentryMXFrame}
    {leaf : Leaf} (h : leaf ∈ frame.leaves ancestors later.isEmpty) :
    leaf ∈ leavesOf ancestors (before ++ frame :: later) := by
  induction before with
  | nil =>
    rw [List.nil_append, leavesOf]
    exact List.mem_append_left _ h
  | cons first rest ih =>
    rw [List.cons_append, leavesOf]
    exact List.mem_append_right _ ih

/-- A leaf before the last of its siblings is found as such. -/
theorem exists_mem_leaves {root parent leaf : SentryMXFrame}
    (hparent : parent ∈ root.framesIncludingSelf) (hmem : leaf ∈ parent.subFrames.dropLast)
    (hleaf : leaf.subFrames = []) (ancestors : List SentryMXFrame) (lastSibling : Bool) :
    ∃ above, ⟨above, leaf, false⟩ ∈ root.leaves ancestors lastSibling := by
  induction root using SentryMXFrame.induction generalizing ancestors lastSibling with
  | h root ih =>
    rw [root.framesIncludingSelf_eq] at hparent
    rcases List.mem_cons.1 hparent with heq | hbelow
    · rw [heq] at hmem
      have hne : root.subFrames ≠ [] := fun h => by rw [h] at hmem; exact List.not_mem_nil hmem
      obtain ⟨before, later, hbefore⟩ := List.append_of_mem hmem
      rw [leaves_of_inner hne, ← List.dropLast_append_getLast hne, hbefore, List.append_assoc,
        List.cons_append]
      refine ⟨root :: ancestors, mem_leavesOf ?_⟩
      rw [leaves_of_leaf hleaf]
      simp
    · obtain ⟨subFrame, hsub, hparent⟩ := SentryMXFrame.mem_flattenedFrames.1 hbelow
      have hne : root.subFrames ≠ [] := List.ne_nil_of_mem hsub
      obtain ⟨before, later, hbefore⟩ := List.append_of_mem hsub
      obtain ⟨above, habove⟩ := ih subFrame hsub hparent (root :: ancestors) later.isEmpty
      rw [leaves_of_inner hne, hbefore]
      exact ⟨above, mem_leavesOf habove⟩

mutual

theorem leaves_sublist (ancestors : List SentryMXFrame) (lastSibling : Bool) :
    (frame : SentryMXFrame) →
      ((frame.leaves ancestors lastSibling).map Leaf.frame).Sublist frame.framesIncludingSelf
  | .mk binary address [] => by
    rw [SentryMXFrame.leaves, SentryMXFrame.framesIncludingSelf]
    exact List.Sublist.cons_cons _ (List.nil_sublist _)
  | .mk binary address (first :: rest) => by
    rw [SentryMXFrame.leaves, SentryMXFrame.framesIncludingSelf]
    exact (leavesOf_sublist _ (first :: rest)).cons _

theorem leavesOf_sublist (ancestors : List SentryMXFrame) :
    (frames : List SentryMXFrame) →
      ((leavesOf ancestors frames).map Leaf.frame).Sublist (flattenedFrames frames)
  | [] => by
    rw [leavesOf]
    exact List.nil_sublist _
  | first :: rest => by
    rw [leavesOf, List.map_append, SentryMXFrame.flattenedFrames]
    exact (leaves_sublist ancestors rest.isEmpty first).append (leavesOf_sublist ancestors rest)

end

/-- With distinct addresses a leaf before the last of its siblings shares its address with no
last leaf. -/
theorem address_ne_of_wrong {root parent leaf : SentryMXFrame}
    (hdistinct : (root.framesIncludingSelf.map SentryMXFrame.address).Nodup)
    (hparent : parent ∈ root.framesIncludingSelf) (hmem : leaf ∈ parent.subFrames.dropLast)
    (hleaf : leaf.subFrames = []) : ∀ last ∈ root.lastLeaves, last.frame.address ≠ leaf.address := by
  intro last hlast heq
  obtain ⟨above, habove⟩ := exists_mem_leaves hparent hmem hleaf [] true
  obtain ⟨hlastMem, hflag⟩ := List.mem_filter.1 hlast
  have hnodup : ((root.leaves [] true).map fun leaf => leaf.frame.address).Nodup := by
    have hsublist := (leaves_sublist [] true root).map SentryMXFrame.address
    rw [List.map_map] at hsublist
    exact hdistinct.sublist hsublist
  rw [List.inj_on_of_nodup_map hnodup hlastMem habove heq] at hflag
  cases hflag

end SentryCocoa.MetricKit
