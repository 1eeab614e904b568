import SentryCocoa.MetricKitLeaves

/-! What the loop does with the frames of a tree whose addresses are distinct: it goes through the
sub frames of a frame and comes back to it, or it comes to a leaf that it captures although it is
not the last of its siblings. -/
namespace SentryCocoa.MetricKit.Traversal
open Relation (ReflTransGen)

section

variable (isInApp : Option String → Bool) (params : SentryMXExceptionParams)

def Round (before after : Traversal) : Prop :=
  ∃ currentFrame rest, before.stackTraceFrames = currentFrame :: rest ∧
    before.iterate isInApp params currentFrame = .ok after

def Ends (traversal : Traversal) (result : Except NSException (List SentryEvent)) : Prop :=
  ∃ fuel, traversal.run isInApp params fuel = some result

end

variable {isInApp : Option String → Bool} {params : SentryMXExceptionParams}
variable {traversal : Traversal} {currentFrame : SentryMXFrame}

theorem parentFrame_eq
    (h : currentFrame.address ∉ currentFrame.subFrames.map SentryMXFrame.address) :
    traversal.parentFrame currentFrame =
      traversal.addressesToParentFrames currentFrame.address := by
  rw [parentFrame, setParentFrame_apply, if_neg h]

theorem next_subFrame {rest before after : List SentryMXFrame} {frame : SentryMXFrame}
    (hframes : traversal.stackTraceFrames = currentFrame :: rest)
    (hsub : currentFrame.subFrames = before ++ frame :: after)
    (hbefore : ∀ other ∈ before, other.address ∈ traversal.seen)
    (hframe : frame.address ∉ traversal.seen) : traversal.next currentFrame = some frame := by
  rw [seen_eq hframes] at hbefore hframe
  unfold next
  rw [hsub, getFirstUnprocessedSubFrames_append hbefore hframe, Option.some_or]

theorem next_sibling {rest before after : List SentryMXFrame} {frame parent : SentryMXFrame}
    (hframes : traversal.stackTraceFrames = currentFrame :: rest)
    (hsub : ∀ other ∈ currentFrame.subFrames, other.address ∈ traversal.seen)
    (hparent : traversal.parentFrame currentFrame = some parent)
    (hsiblings : parent.subFrames = before ++ frame :: after)
    (hbefore : ∀ other ∈ before, other.address ∈ traversal.seen)
    (hframe : frame.address ∉ traversal.seen) : traversal.next currentFrame = some frame := by
  rw [seen_eq hframes] at hsub hbefore hframe
  unfold next siblings
  rw [getFirstUnprocessedSubFrames_eq_none.2 hsub, Option.none_or, hparent, Option.map_some,
    Option.getD_some, hsiblings, getFirstUnprocessedSubFrames_append hbefore hframe]

theorem next_eq_none {rest : List SentryMXFrame}
    (hframes : traversal.stackTraceFrames = currentFrame :: rest)
    (hsub : ∀ other ∈ currentFrame.subFrames, other.address ∈ traversal.seen)
    (hsiblings : ∀ parent, traversal.parentFrame currentFrame = some parent →
      ∀ other ∈ parent.subFrames, other.address ∈ traversal.seen) :
    traversal.next currentFrame = none := by
  rw [seen_eq hframes] at hsub hsiblings
  unfold next siblings
  rw [getFirstUnprocessedSubFrames_eq_none.2 hsub, Option.none_or]
  cases hparent : traversal.parentFrame currentFrame with
  | none => rfl
  | some parent => exact getFirstUnprocessedSubFrames_eq_none.2 (hsiblings parent hparent)

theorem Round.ends_iff {before after : Traversal} (h : Round isInApp params before after)
    {result : Except NSException (List SentryEvent)} :
    Ends isInApp params before result ↔ Ends isInApp params after result := by
  obtain ⟨currentFrame, rest, hframes, hround⟩ := h
  have hstep (fuel : Nat) :
      before.run isInApp params (fuel + 1) = after.run isInApp params fuel := by
    rw [run, hframes]
    simp only [hround]
  constructor
  · rintro ⟨fuel, hrun⟩
    cases fuel with
    | zero => cases hrun
    | succ fuel => exact ⟨fuel, (hstep fuel).symm.trans hrun⟩
  · rintro ⟨fuel, hrun⟩
    exact ⟨fuel + 1, (hstep fuel).trans hrun⟩

theorem ends_iff_of_rounds {before after : Traversal}
    (h : ReflTransGen (Round isInApp params) before after)
    {result : Except NSException (List SentryEvent)} :
    Ends isInApp params before result ↔ Ends isInApp params after result := by
  induction h with
  | refl => rfl
  | tail _ hround ih => exact ih.trans hround.ends_iff

/-! ## Visits -/

/-- Rounds that capture `events`, come to the addresses in `found` and leave the parents alone
except for those of the addresses in `below`. -/
structure Visit (isInApp : Option String → Bool) (params : SentryMXExceptionParams)
    (before after : Traversal) (found below : List UInt64) (events : List SentryEvent) : Prop where
  rounds : ReflTransGen (Round isInApp params) before after
  captured : after.captured = before.captured ++ events
  seen : ∀ address, address ∈ after.seen ↔ address ∈ before.seen ∨ address ∈ found
  parents : ∀ address, address ∉ below →
    after.addressesToParentFrames address = before.addressesToParentFrames address

theorem Visit.refl (traversal : Traversal) (below : List UInt64) :
    Visit isInApp params traversal traversal [] below [] where
  rounds := .refl
  captured := (List.append_nil _).symm
  seen address := by simp
  parents _ _ := rfl

theorem Visit.trans {first second third : Traversal} {found found' below : List UInt64}
    {events events' : List SentryEvent} (h : Visit isInApp params first second found below events)
    (h' : Visit isInApp params second third found' below events') :
    Visit isInApp params first third (found ++ found') below (events ++ events') where
  rounds := h.rounds.trans h'.rounds
  captured := by rw [h'.captured, h.captured, List.append_assoc]
  seen address := by rw [h'.seen, h.seen, List.mem_append, or_assoc]
  parents address haddress := (h'.parents address haddress).trans (h.parents address haddress)

theorem Visit.mono {before after : Traversal} {found below below' : List UInt64}
    {events : List SentryEvent} (h : Visit isInApp params before after found below events)
    (hbelow : ∀ address ∈ below, address ∈ below') :
    Visit isInApp params before after found below' events :=
  { h with parents := fun address haddress =>
      h.parents address fun hmem => haddress (hbelow address hmem) }

/-- The siblings of a frame keep their parent while the frames below it are visited. -/
theorem Visit.parents_siblings {before after : Traversal} {found : List UInt64}
    {events : List SentryEvent} {frame parent : SentryMXFrame}
    (h : Visit isInApp params before after found (addresses frame.subFrames) events)
    (hdistinct : (addresses parent.subFrames).Nodup) (hmem : frame ∈ parent.subFrames)
    (hparents : ∀ other ∈ parent.subFrames,
      before.addressesToParentFrames other.address = some parent) :
    ∀ other ∈ parent.subFrames, after.addressesToParentFrames other.address = some parent :=
  fun other hother => (h.parents _ (address_notMem_below hdistinct hmem hother)).trans
    (hparents other hother)

theorem setParentFrame_of_notMem {parents : UInt64 → Option SentryMXFrame} {address : UInt64}
    (h : address ∉ addresses currentFrame.subFrames) :
    setParentFrame parents currentFrame address = parents address := by
  rw [setParentFrame_apply, if_neg fun hmem => h (map_address_subset _ _ hmem)]

theorem visit_push {rest : List SentryMXFrame} {frame : SentryMXFrame}
    (hframes : traversal.stackTraceFrames = currentFrame :: rest)
    (hnext : traversal.next currentFrame = some frame) :
    Visit isInApp params traversal
      { traversal.mark currentFrame with
        stackTraceFrames := frame :: traversal.stackTraceFrames }
      [frame.address] (addresses currentFrame.subFrames) [] where
  rounds := .single ⟨currentFrame, rest, hframes, iterate_push hnext⟩
  captured := (List.append_nil _).symm
  seen address := by
    rw [seen_eq hframes]
    simp [seen, mark, or_comm]
  parents _ := setParentFrame_of_notMem

/-- Popping goes back to a frame that was seen. -/
theorem mem_seen_pop {siblings rest : List SentryMXFrame} {frame : SentryMXFrame}
    {captured : List SentryEvent}
    (hframes : traversal.stackTraceFrames = currentFrame :: siblings)
    (hseen : frame.address ∈ traversal.seen) (address : UInt64) :
    address ∈ seen { traversal.mark currentFrame with
      stackTraceFrames := frame :: rest, captured } ↔ address ∈ traversal.seen ∨ address ∈ [] := by
  rw [seen_eq hframes] at hseen ⊢
  simp only [seen, mark, List.head?_cons, Option.map_some, Option.toList_some,
    List.singleton_append, List.mem_cons, List.not_mem_nil, or_false] at hseen ⊢
  refine ⟨fun h => ?_, .inr⟩
  rcases h with rfl | h
  · exact hseen
  · exact h

theorem visit_pop {rest : List SentryMXFrame} {frame : SentryMXFrame}
    (hframes : traversal.stackTraceFrames = currentFrame :: frame :: rest)
    (hinner : currentFrame.subFrames ≠ []) (hnext : traversal.next currentFrame = none)
    (hseen : frame.address ∈ traversal.seen) :
    Visit isInApp params traversal
      { traversal.mark currentFrame with stackTraceFrames := frame :: rest }
      [] (addresses currentFrame.subFrames) [] where
  rounds := .single ⟨currentFrame, _, hframes, iterate_pop hinner hnext hframes⟩
  captured := (List.append_nil _).symm
  seen := mem_seen_pop hframes hseen
  parents _ := setParentFrame_of_notMem

theorem visit_capture {siblings rest : List SentryMXFrame} {parent : SentryMXFrame}
    (hframes : traversal.stackTraceFrames = currentFrame :: siblings ++ parent :: rest)
    (hleaf : currentFrame.subFrames = []) (hnext : traversal.next currentFrame = none)
    (hparent : traversal.addressesToParentFrames currentFrame.address = some parent)
    (hcount : parent.subFrames.length = siblings.length + 1)
    (hseen : parent.address ∈ traversal.seen) :
    ∃ after, after.stackTraceFrames = parent :: rest ∧ Visit isInApp params traversal after []
      (addresses currentFrame.subFrames)
      [captureEventNotPerThread isInApp params traversal.stackTraceFrames.reverse] := by
  have hpop : removeLastObjects (traversal.popCount currentFrame) traversal.stackTraceFrames =
      .ok (parent :: rest) := by
    have hpopCount : traversal.popCount currentFrame = (currentFrame :: siblings).length := by
      rw [popCount, parentFrame_eq (by rw [hleaf]; exact List.not_mem_nil), hparent]
      exact hcount
    rw [removeLastObjects, hpopCount, hframes, List.drop_left, if_pos]
    rw [List.length_append]
    exact Nat.le_add_right _ _
  have hround := @iterate_capture isInApp params _ _ hleaf hnext
  rw [hpop] at hround
  exact ⟨_, rfl, .single ⟨currentFrame, _, hframes, hround⟩, rfl, mem_seen_pop hframes hseen,
    fun _ => setParentFrame_of_notMem⟩

/-- The loop is about to capture an event for a leaf that is not the last of its siblings. -/
def WrongLeaf (root : SentryMXFrame) (traversal : Traversal) : Prop :=
  ∃ leaf rest, traversal.stackTraceFrames = leaf :: rest ∧ leaf.subFrames = [] ∧
    traversal.next leaf = none ∧
    ∃ parent ∈ root.framesIncludingSelf, leaf ∈ parent.subFrames.dropLast

def ReachesWrongLeaf (isInApp : Option String → Bool) (params : SentryMXExceptionParams)
    (root : SentryMXFrame) (traversal : Traversal) : Prop :=
  ∃ after, ReflTransGen (Round isInApp params) traversal after ∧ WrongLeaf root after

theorem ReachesWrongLeaf.mono {root frame : SentryMXFrame} (hframe : frame ∈ root.subFrames)
    (h : ReachesWrongLeaf isInApp params frame traversal) :
    ReachesWrongLeaf isInApp params root traversal := by
  obtain ⟨after, hrounds, leaf, rest, hframes, hleaf, hnext, parent, hparent, hmem⟩ := h
  refine ⟨after, hrounds, leaf, rest, hframes, hleaf, hnext, parent, ?_, hmem⟩
  rw [root.framesIncludingSelf_eq]
  exact List.mem_cons_of_mem _ (SentryMXFrame.mem_flattenedFrames.2 ⟨frame, hframe, hparent⟩)

theorem ReachesWrongLeaf.head {root : SentryMXFrame} {before after : Traversal}
    (hrounds : ReflTransGen (Round isInApp params) before after)
    (h : ReachesWrongLeaf isInApp params root after) :
    ReachesWrongLeaf isInApp params root before := by
  obtain ⟨last, hlast, hwrong⟩ := h
  exact ⟨last, hrounds.trans hlast, hwrong⟩

section

variable {parent : SentryMXFrame} {stack : List SentryMXFrame}

/-- When the sub frames of `parent` are seen, none of them has a next frame. -/
theorem next_eq_none_of_seen {frame : SentryMXFrame} {rest : List SentryMXFrame}
    (hframes : traversal.stackTraceFrames = frame :: rest) (hmem : frame ∈ parent.subFrames)
    (hdistinct : (addresses parent.subFrames).Nodup)
    (hseen : ∀ address ∈ addresses parent.subFrames, address ∈ traversal.seen)
    (hparent : traversal.addressesToParentFrames frame.address = some parent) :
    traversal.next frame = none := by
  apply next_eq_none hframes
  · intro other hother
    exact hseen _ (addresses_subFrames_subset hmem _ (address_mem_addresses hother))
  · intro found hfound other hother
    rw [parentFrame_eq fun h => address_notMem_below hdistinct hmem hmem (map_address_subset _ _ h),
      hparent] at hfound
    cases hfound
    exact hseen _ (address_mem_addresses hother)

/-- When all frames are seen the inner ones are popped one by one, and the first leaf that comes
up is captured. -/
theorem unwind {siblings : List SentryMXFrame}
    (hsiblings : ∀ frame ∈ siblings, frame ∈ parent.subFrames)
    (hleaves : ∀ frame ∈ siblings, frame.subFrames = [] → frame ∈ parent.subFrames.dropLast)
    (hdistinct : (addresses parent.subFrames).Nodup)
    (traversal : Traversal) (hframes : traversal.stackTraceFrames = siblings ++ parent :: stack)
    (hseen : ∀ address ∈ parent.address :: addresses parent.subFrames, address ∈ traversal.seen)
    (hparents : ∀ frame ∈ parent.subFrames,
      traversal.addressesToParentFrames frame.address = some parent) :
    ((∀ frame ∈ siblings, frame.subFrames ≠ []) ∧ ∃ after,
      after.stackTraceFrames = parent :: stack ∧
      Visit isInApp params traversal after [] (addresses parent.subFrames) []) ∨
    (¬ (∀ frame ∈ siblings, frame.subFrames ≠ []) ∧
      ReachesWrongLeaf isInApp params parent traversal) := by
  induction siblings generalizing traversal with
  | nil =>
    exact .inl ⟨fun _ h => absurd h List.not_mem_nil, traversal, hframes, .refl traversal _⟩
  | cons frame rest ih =>
    have hmem : frame ∈ parent.subFrames := hsiblings frame List.mem_cons_self
    have hnext : traversal.next frame = none := next_eq_none_of_seen hframes hmem hdistinct
      (fun address haddress => hseen address (List.mem_cons_of_mem _ haddress))
      (hparents frame hmem)
    by_cases hleaf : frame.subFrames = []
    · refine .inr ⟨fun h => h frame List.mem_cons_self hleaf, traversal, .refl,
        frame, _, hframes, hleaf, hnext, parent, parent.mem_framesIncludingSelf,
        hleaves frame List.mem_cons_self hleaf⟩
    · obtain ⟨top, below, hbelow⟩ : ∃ top below, rest ++ parent :: stack = top :: below :=
        List.exists_cons_of_ne_nil (by simp)
      have htop : top.address ∈ traversal.seen := by
        cases rest with
        | nil =>
          obtain ⟨rfl, -⟩ := List.cons.inj hbelow
          exact hseen _ List.mem_cons_self
        | cons other others =>
          obtain ⟨rfl, -⟩ := List.cons.inj hbelow
          exact hseen _ (List.mem_cons_of_mem _ (address_mem_addresses
            (hsiblings _ (List.mem_cons_of_mem _ List.mem_cons_self))))
      have hpop : Visit isInApp params traversal _ [] (addresses frame.subFrames) [] :=
        visit_pop (by rw [hframes, List.cons_append, hbelow]) hleaf hnext htop
      rcases ih (fun other hother => hsiblings other (List.mem_cons_of_mem _ hother))
          (fun other hother => hleaves other (List.mem_cons_of_mem _ hother)) _ hbelow.symm
          (fun address haddress => (hpop.seen address).2 (.inl (hseen address haddress)))
          (hpop.parents_siblings hdistinct hmem hparents) with
        ⟨hinner, after, hafter, hvisit⟩ | ⟨hinner, hwrong⟩
      · exact .inl ⟨List.forall_mem_cons.2 ⟨hleaf, hinner⟩, after, hafter,
          (hpop.mono (addresses_subFrames_subset hmem)).trans hvisit⟩
      · exact .inr ⟨fun h => hinner (List.forall_mem_cons.1 h).2, hwrong.head hpop.rounds⟩

end

/-! ## Events -/

theorem describes_capture {leaf : Leaf} {rest : List SentryMXFrame}
    (hancestors : leaf.ancestors.Sublist rest) :
    Describes isInApp (captureEventNotPerThread isInApp params (leaf.frame :: rest).reverse)
      leaf := by
  intro stacktrace hmem
  have heq : stacktrace = convertMXFramesToSentryStacktrace isInApp
      (leaf.frame :: rest).reverse := by
    simpa [SentryEvent.stacktraces, captureEventNotPerThread] using hmem
  rw [heq, convertMXFramesToSentryStacktrace]
  refine ⟨by simp, ?_⟩
  have hpath : leaf.path.Sublist (leaf.frame :: rest) := hancestors.cons_cons leaf.frame
  exact (hpath.map _).subperm.trans ((List.reverse_perm _).map _).symm.subperm

section

variable {parent : SentryMXFrame} {stack : List SentryMXFrame}

/-- The top frame is visited with all frames below it, if the lists of sub frames are right. -/
def VisitsBelow (isInApp : Option String → Bool) (params : SentryMXExceptionParams)
    (frame : SentryMXFrame) : Prop :=
  ∀ (traversal : Traversal) (rest : List SentryMXFrame),
    traversal.stackTraceFrames = frame :: rest →
    (∀ address ∈ addresses frame.subFrames, address ∉ traversal.seen) →
    (LeavesLast frame ∧ ∃ after events, after.stackTraceFrames = frame :: rest ∧
      Visit isInApp params traversal after (addresses frame.subFrames)
        (addresses frame.subFrames) events ∧
      ∀ ancestors lastSibling, ancestors.Sublist rest →
        List.Forall₂ (Describes isInApp) events
          ((frame.leaves ancestors lastSibling).filter Leaf.lastSibling)) ∨
    (¬ LeavesLast frame ∧ ReachesWrongLeaf isInApp params frame traversal)

theorem visit_lastLeaf {frame : SentryMXFrame} {before : List SentryMXFrame}
    (hsub : parent.subFrames = before ++ [frame]) (hleaf : frame.subFrames = [])
    (hdistinct : (addresses parent.subFrames).Nodup)
    (hframes : traversal.stackTraceFrames = frame :: (before.reverse ++ parent :: stack))
    (hseen : ∀ address ∈ parent.address :: addresses parent.subFrames, address ∈ traversal.seen)
    (hparent : traversal.addressesToParentFrames frame.address = some parent) :
    ∃ after, after.stackTraceFrames = parent :: stack ∧
      Visit isInApp params traversal after [] (addresses frame.subFrames)
        [captureEventNotPerThread isInApp params traversal.stackTraceFrames.reverse] := by
  have hmem : frame ∈ parent.subFrames := by
    rw [hsub]
    exact List.mem_append_right _ (List.mem_singleton_self frame)
  apply @visit_capture _ _ _ _ before.reverse _ _ hframes hleaf _ hparent
  · rw [hsub, List.length_append, List.length_reverse, List.length_singleton]
  · exact hseen _ List.mem_cons_self
  · exact next_eq_none_of_seen hframes hmem hdistinct
      (fun address haddress => hseen address (List.mem_cons_of_mem _ haddress)) hparent

theorem visit_lastInner {frame : SentryMXFrame} {before : List SentryMXFrame}
    (hsub : parent.subFrames = before ++ [frame]) (hinner : frame.subFrames ≠ [])
    (hdistinct : (addresses parent.subFrames).Nodup)
    (hframes : traversal.stackTraceFrames = frame :: (before.reverse ++ parent :: stack))
    (hseen : ∀ address ∈ parent.address :: addresses parent.subFrames, address ∈ traversal.seen)
    (hparents : ∀ other ∈ parent.subFrames,
      traversal.addressesToParentFrames other.address = some parent) :
    (EndsInLeaf parent.subFrames ∧ ∃ after, after.stackTraceFrames = parent :: stack ∧
      Visit isInApp params traversal after [] (addresses parent.subFrames) []) ∨
    (¬ EndsInLeaf parent.subFrames ∧ ReachesWrongLeaf isInApp params parent traversal) := by
  have hends : EndsInLeaf parent.subFrames ↔
      ∀ other ∈ frame :: before.reverse, other.subFrames ≠ [] := by
    rw [hsub, endsInLeaf_inner hinner]
    simp [hinner]
  rw [hends]
  refine unwind (fun other hother => ?_) (fun other hother hleaf => ?_) hdistinct traversal
    hframes hseen hparents
  · rw [hsub]
    rcases List.mem_cons.1 hother with rfl | hbefore
    · exact List.mem_append_right _ (List.mem_singleton_self other)
    · exact List.mem_append_left _ (List.mem_reverse.1 hbefore)
  · rw [hsub, List.dropLast_concat]
    rcases List.mem_cons.1 hother with rfl | hbefore
    · exact absurd hleaf hinner
    · exact List.mem_reverse.1 hbefore

/-- From a visited frame the loop goes on to the next of its siblings. -/
theorem visit_sibling {frame sibling : SentryMXFrame} {before later rest : List SentryMXFrame}
    (hsub : parent.subFrames = before ++ frame :: sibling :: later)
    (hdistinct : (addresses parent.subFrames).Nodup)
    (hframes : traversal.stackTraceFrames = frame :: rest)
    (hbefore : ∀ address ∈ addresses before, address ∈ traversal.seen)
    (hbelow : ∀ address ∈ addresses frame.subFrames, address ∈ traversal.seen)
    (hsibling : sibling.address ∉ traversal.seen)
    (hparent : traversal.addressesToParentFrames frame.address = some parent) :
    ∃ after, after.stackTraceFrames = sibling :: traversal.stackTraceFrames ∧
      Visit isInApp params traversal after [sibling.address] (addresses frame.subFrames) [] := by
  have hmem : frame ∈ parent.subFrames := by
    rw [hsub]
    exact List.mem_append_right _ List.mem_cons_self
  have hself : frame.address ∉ frame.subFrames.map SentryMXFrame.address := fun h =>
    address_notMem_below hdistinct hmem hmem (map_address_subset _ _ h)
  have hnext : traversal.next frame = some sibling := by
    apply @next_sibling _ _ _ (before ++ [frame]) later _ _ hframes _
      ((parentFrame_eq hself).trans hparent) (by rw [hsub, List.append_assoc]; rfl) _ hsibling
    · intro other hother
      exact hbelow _ (address_mem_addresses hother)
    · intro other hother
      rcases List.mem_append.1 hother with hother | hother
      · exact hbefore _ (address_mem_addresses hother)
      · rw [List.mem_singleton.1 hother, seen_eq hframes]
        exact List.mem_cons_self
  exact ⟨_, rfl, visit_push hframes hnext⟩

/-- A frame and those below it: a leaf is there already, an inner frame is visited. -/
theorem visitsBelow_or_leaf {frame : SentryMXFrame} {rest : List SentryMXFrame}
    (hvisits : frame.subFrames ≠ [] → VisitsBelow isInApp params frame)
    (hframes : traversal.stackTraceFrames = frame :: rest)
    (hfresh : ∀ address ∈ addresses frame.subFrames, address ∉ traversal.seen) :
    (LeavesLast frame ∧ ∃ after events, after.stackTraceFrames = frame :: rest ∧
      Visit isInApp params traversal after (addresses frame.subFrames)
        (addresses frame.subFrames) events ∧
      ∀ ancestors, ancestors.Sublist rest →
        List.Forall₂ (Describes isInApp) events
          ((frame.leaves ancestors false).filter Leaf.lastSibling)) ∨
    (¬ LeavesLast frame ∧ ReachesWrongLeaf isInApp params frame traversal) := by
  by_cases hleaf : frame.subFrames = []
  · refine .inl ⟨leavesLast_of_leaf hleaf, traversal, [], hframes, ?_, fun ancestors _ => ?_⟩
    · rw [hleaf]
      exact .refl traversal _
    · rw [leaves_of_leaf hleaf]
      exact .nil
  · rcases hvisits hleaf traversal rest hframes hfresh with
      ⟨hgood, after, events, hafter, hvisit, hevents⟩ | hwrong
    · exact .inl ⟨hgood, after, events, hafter, hvisit, fun ancestors => hevents ancestors false⟩
    · exact .inr hwrong

/-- The loop has come to the sub frame of `parent` after `before`. -/
structure AtSubFrame (parent : SentryMXFrame) (stack before : List SentryMXFrame)
    (frame : SentryMXFrame) (later : List SentryMXFrame) (traversal : Traversal) : Prop where
  sub : parent.subFrames = before ++ frame :: later
  frames : traversal.stackTraceFrames = frame :: (before.reverse ++ parent :: stack)
  before : ∀ address ∈ parent.address :: addresses before, address ∈ traversal.seen
  fresh : ∀ address ∈ addresses frame.subFrames ++ addresses later, address ∉ traversal.seen
  parents : ∀ other ∈ parent.subFrames,
    traversal.addressesToParentFrames other.address = some parent

/-- It goes through this and the later sub frames and comes back to `parent`. -/
def ReturnsToParent (isInApp : Option String → Bool) (params : SentryMXExceptionParams)
    (parent : SentryMXFrame) (stack : List SentryMXFrame) (frame : SentryMXFrame)
    (later : List SentryMXFrame) (traversal : Traversal) : Prop :=
  ((EndsInLeaf parent.subFrames ∧ ∀ other ∈ frame :: later, LeavesLast other) ∧
    ∃ after events, after.stackTraceFrames = parent :: stack ∧
      Visit isInApp params traversal after (addresses frame.subFrames ++ addresses later)
        (addresses parent.subFrames) events ∧
      ∀ ancestors, ancestors.Sublist (parent :: stack) →
        List.Forall₂ (Describes isInApp) events
          ((leavesOf ancestors (frame :: later)).filter Leaf.lastSibling)) ∨
  (¬ (EndsInLeaf parent.subFrames ∧ ∀ other ∈ frame :: later, LeavesLast other) ∧
    ReachesWrongLeaf isInApp params parent traversal)

section

variable {frame : SentryMXFrame} {before later : List SentryMXFrame}

theorem AtSubFrame.mem (h : AtSubFrame parent stack before frame later traversal) :
    frame ∈ parent.subFrames := by
  rw [h.sub]
  exact List.mem_append_right _ List.mem_cons_self

/-- With the frames below the last sub frame all those below `parent` are seen. -/
theorem AtSubFrame.all_seen (h : AtSubFrame parent stack before frame [] traversal)
    {after : Traversal} (hseen : ∀ address ∈ traversal.seen, address ∈ after.seen)
    (hbelow : ∀ address ∈ addresses frame.subFrames, address ∈ after.seen) :
    ∀ address ∈ parent.address :: addresses parent.subFrames, address ∈ after.seen := by
  have hbefore := h.before
  rw [List.forall_mem_cons] at hbefore ⊢
  refine ⟨hseen _ hbefore.1, fun address haddress => ?_⟩
  rw [h.sub, addresses_append, addresses_cons, addresses_nil, List.append_nil] at haddress
  rcases List.mem_append.1 haddress with hmem | hmem
  · exact hseen _ (hbefore.2 address hmem)
  · rcases List.mem_cons.1 hmem with rfl | hmem
    · refine hseen _ ?_
      rw [seen_eq h.frames]
      exact List.mem_cons_self
    · exact hbelow address hmem

theorem AtSubFrame.returns_lastLeaf (h : AtSubFrame parent stack before frame [] traversal)
    (hdistinct : (addresses parent.subFrames).Nodup) (hleaf : frame.subFrames = []) :
    ReturnsToParent isInApp params parent stack frame [] traversal := by
  have hall := h.all_seen (fun _ => id) (by
    rw [hleaf]
    exact fun _ hmem => absurd hmem List.not_mem_nil)
  obtain ⟨after, hafter, hvisit⟩ := @visit_lastLeaf isInApp params _ _ _ _ _
    h.sub hleaf hdistinct h.frames hall (h.parents frame h.mem)
  refine .inl ⟨⟨?_, ?_⟩, after,
    [captureEventNotPerThread isInApp params traversal.stackTraceFrames.reverse], hafter, ?_,
    fun ancestors hancestors => ?_⟩
  · rw [h.sub]
    exact endsInLeaf_leaf hleaf
  · rw [List.forall_mem_singleton]
    exact leavesLast_of_leaf hleaf
  · rw [hleaf]
    exact hvisit.mono (addresses_subFrames_subset h.mem)
  · rw [leavesOf, leavesOf, List.append_nil, leaves_of_leaf hleaf, h.frames]
    have hleaf : (Leaf.mk ancestors frame true).ancestors.Sublist
        (before.reverse ++ parent :: stack) :=
      hancestors.trans (List.sublist_append_right _ _)
    exact .cons (describes_capture hleaf) .nil

theorem AtSubFrame.returns_lastInner (h : AtSubFrame parent stack before frame [] traversal)
    (hdistinct : (addresses parent.subFrames).Nodup) (hinner : frame.subFrames ≠ [])
    (hvisits : VisitsBelow isInApp params frame) :
    ReturnsToParent isInApp params parent stack frame [] traversal := by
  rcases hvisits traversal _ h.frames
      (fun address hmem => h.fresh address (List.mem_append_left _ hmem)) with
    ⟨hgood, middle, events, hmiddle, hvisit, hevents⟩ | ⟨hbad, hwrong⟩
  · have hall := h.all_seen (fun address hmem => (hvisit.seen address).2 (.inl hmem))
      (fun address hmem => (hvisit.seen address).2 (.inr hmem))
    rcases @visit_lastInner isInApp params _ _ _ _ _ h.sub hinner hdistinct hmiddle hall
        (hvisit.parents_siblings hdistinct h.mem h.parents) with
      ⟨hends, after, hafter, hvisitBack⟩ | ⟨hends, hwrong⟩
    · refine .inl ⟨⟨hends, List.forall_mem_singleton.2 hgood⟩, after, events, hafter, ?_,
        fun ancestors hancestors => ?_⟩
      · have hboth := (hvisit.mono (addresses_subFrames_subset h.mem)).trans hvisitBack
        simpa only [addresses_nil, List.append_nil] using hboth
      · rw [leavesOf, leavesOf, List.append_nil]
        exact hevents ancestors _ (hancestors.trans (List.sublist_append_right _ _))
    · exact .inr ⟨fun hboth => hends hboth.1, hwrong.head hvisit.rounds⟩
  · exact .inr ⟨fun hboth => hbad (hboth.2 frame List.mem_cons_self), hwrong.mono h.mem⟩

/-- After a visit of the frames below, the next round comes to the next sub frame. -/
theorem AtSubFrame.next {sibling : SentryMXFrame}
    (h : AtSubFrame parent stack before frame (sibling :: later) traversal)
    (hdistinct : (addresses parent.subFrames).Nodup) {middle : Traversal}
    {events : List SentryEvent} (hmiddle : middle.stackTraceFrames = traversal.stackTraceFrames)
    (hvisit : Visit isInApp params traversal middle (addresses frame.subFrames)
      (addresses frame.subFrames) events) :
    ∃ after, AtSubFrame parent stack (before ++ [frame]) sibling later after ∧
      Visit isInApp params traversal after (addresses frame.subFrames ++ [sibling.address])
        (addresses parent.subFrames) events := by
  have hnodup : (addresses (frame :: sibling :: later)).Nodup := by
    rw [h.sub, addresses_append] at hdistinct
    exact (List.nodup_append'.1 hdistinct).2.1
  rw [addresses_cons, List.cons_append, List.nodup_cons, List.nodup_append'] at hnodup
  obtain ⟨-, -, hlater, hdisjoint⟩ := hnodup
  have hparents := hvisit.parents_siblings hdistinct h.mem h.parents
  have hnew : ∀ address ∈ addresses (sibling :: later), address ∉ middle.seen := by
    intro address haddress hmem
    rcases (hvisit.seen address).1 hmem with hmem | hmem
    · exact h.fresh address (List.mem_append_right _ haddress) hmem
    · exact hdisjoint hmem haddress
  obtain ⟨after, hafter, hpush⟩ := @visit_sibling isInApp params _ _ _ _ _ _ _
    h.sub hdistinct (hmiddle.trans h.frames)
    (fun address hmem => (hvisit.seen address).2 (.inl (h.before address
      (List.mem_cons_of_mem _ hmem))))
    (fun address hmem => (hvisit.seen address).2 (.inr hmem))
    (hnew _ (address_mem_addresses List.mem_cons_self)) (hparents frame h.mem)
  have hreach := (hvisit.trans hpush).mono (addresses_subFrames_subset h.mem)
  rw [List.append_nil] at hreach
  refine ⟨after, ⟨?_, ?_, fun address haddress => ?_, fun address haddress hmem => ?_,
    hpush.parents_siblings hdistinct h.mem hparents⟩, hreach⟩
  · rw [h.sub, List.append_assoc]
    rfl
  · rw [hafter, hmiddle, h.frames]
    simp
  · rw [hreach.seen]
    rw [addresses_append, addresses_cons, ← List.cons_append] at haddress
    rcases List.mem_append.1 haddress with hmem | hmem
    · exact .inl (h.before address hmem)
    · rw [addresses_nil, List.append_nil] at hmem
      rcases List.mem_cons.1 hmem with rfl | hmem
      · refine .inl ?_
        rw [seen_eq h.frames]
        exact List.mem_cons_self
      · exact .inr (List.mem_append_left _ hmem)
  · rw [addresses_cons, List.cons_append, List.nodup_cons] at hlater
    rcases (hpush.seen address).1 hmem with hmem | hmem
    · refine hnew address ?_ hmem
      rw [addresses_cons]
      exact List.mem_cons_of_mem _ haddress
    · rw [List.mem_singleton.1 hmem] at haddress
      exact hlater.1 haddress

/-- From a sub frame of `parent` the loop goes through the later ones. -/
theorem AtSubFrame.returns (h : AtSubFrame parent stack before frame later traversal)
    (hdistinct : (addresses parent.subFrames).Nodup)
    (hvisits : ∀ frame ∈ parent.subFrames, frame.subFrames ≠ [] →
      VisitsBelow isInApp params frame) :
    ReturnsToParent isInApp params parent stack frame later traversal := by
  induction later generalizing traversal frame before with
  | nil =>
    by_cases hleaf : frame.subFrames = []
    · exact h.returns_lastLeaf hdistinct hleaf
    · exact h.returns_lastInner hdistinct hleaf (hvisits frame h.mem hleaf)
  | cons sibling later ih =>
    rcases visitsBelow_or_leaf (hvisits frame h.mem) h.frames
        (fun address hmem => h.fresh address (List.mem_append_left _ hmem)) with
      ⟨hgood, middle, events, hmiddle, hvisit, hevents⟩ | ⟨hbad, hwrong⟩
    · obtain ⟨next, hnext, hreach⟩ := h.next hdistinct (hmiddle.trans h.frames.symm) hvisit
      rcases ih hnext with
        ⟨⟨hends, hall⟩, after, laterEvents, hafter, hvisitLater, hlaterEvents⟩ | ⟨hends, hwrong⟩
      · refine .inl ⟨⟨hends, List.forall_mem_cons.2 ⟨hgood, hall⟩⟩, after, events ++ laterEvents,
          hafter, ?_, fun ancestors hancestors => ?_⟩
        · have hboth := hreach.trans hvisitLater
          rw [addresses_cons]
          simpa only [List.nil_append, List.append_assoc, List.cons_append] using hboth
        · rw [leavesOf, List.filter_append]
          exact List.rel_append (hevents ancestors
            (hancestors.trans (List.sublist_append_right _ _))) (hlaterEvents ancestors hancestors)
      · exact .inr ⟨fun hboth => hends ⟨hboth.1, (List.forall_mem_cons.1 hboth.2).2⟩,
          hwrong.head hreach.rounds⟩
    · exact .inr ⟨fun hboth => hbad (hboth.2 frame List.mem_cons_self), hwrong.mono h.mem⟩

end

theorem nodup_subFrame {frame subFrame : SentryMXFrame}
    (hdistinct : (addresses frame.subFrames).Nodup) (hmem : subFrame ∈ frame.subFrames) :
    (subFrame.address :: addresses subFrame.subFrames).Nodup := by
  obtain ⟨before, later, hsub⟩ := List.append_of_mem hmem
  rw [hsub, addresses_append, addresses_cons] at hdistinct
  exact (List.nodup_append'.1 (List.nodup_append'.1 hdistinct).2.1).1

/-- Every inner frame is visited with all frames below it. -/
theorem visitsBelow {frame : SentryMXFrame} (hinner : frame.subFrames ≠ [])
    (hdistinct : (frame.address :: addresses frame.subFrames).Nodup) :
    VisitsBelow isInApp params frame := by
  induction frame using SentryMXFrame.induction with
  | h frame ih =>
    intro traversal rest hframes hfresh
    obtain ⟨first, later, hsub⟩ := List.exists_cons_of_ne_nil hinner
    obtain ⟨hself, hbelow⟩ := List.nodup_cons.1 hdistinct
    have hfirst : first.address ∉ traversal.seen :=
      hfresh _ (address_mem_addresses (by rw [hsub]; exact List.mem_cons_self))
    have hpush : Visit isInApp params traversal _ [first.address] (addresses frame.subFrames) [] :=
      visit_push hframes (@next_subFrame _ _ _ [] later _ hframes hsub
        (fun _ h => absurd h List.not_mem_nil) hfirst)
    have hnodup : (addresses (first :: later)).Nodup := hsub ▸ hbelow
    rw [addresses_cons, List.cons_append, List.nodup_cons] at hnodup
    have hunseen : ∀ address ∈ addresses first.subFrames ++ addresses later,
        address ∉ Traversal.seen { traversal.mark frame with
          stackTraceFrames := first :: traversal.stackTraceFrames } := by
      intro address haddress h
      rcases (hpush.seen address).1 h with h | h
      · refine hfresh address ?_ h
        rw [hsub, addresses_cons]
        exact List.mem_cons_of_mem _ haddress
      · rw [List.mem_singleton.1 h] at haddress
        exact hnodup.1 haddress
    have hparents : ∀ other ∈ frame.subFrames,
        setParentFrame traversal.addressesToParentFrames frame other.address = some frame := by
      intro other hother
      rw [setParentFrame_apply, if_pos (List.mem_map_of_mem hother)]
    have hall : (∀ other ∈ first :: later, LeavesLast other) ↔
        ∀ other ∈ frame.subFrames, LeavesLast other := by rw [hsub]
    rw [leavesLast_iff, ← hall]
    have hat : AtSubFrame frame rest [] first later { traversal.mark frame with
        stackTraceFrames := first :: traversal.stackTraceFrames } := by
      refine ⟨hsub, by rw [hframes]; rfl, fun address haddress => ?_, hunseen, hparents⟩
      rw [List.mem_singleton.1 haddress, hpush.seen, seen_eq hframes]
      exact .inl List.mem_cons_self
    rcases hat.returns hbelow
        (fun other hother hne => ih other hother hne (nodup_subFrame hbelow hother)) with
      ⟨hgood, after, events, hafter, hvisit, hevents⟩ | ⟨hbad, hwrong⟩
    · refine .inl ⟨hgood, after, events, hafter, ?_, fun ancestors lastSibling hancestors => ?_⟩
      · have hboth := hpush.trans hvisit
        rw [hsub, addresses_cons] at hboth ⊢
        exact hboth
      · rw [leaves_of_inner hinner, hsub]
        exact hevents (frame :: ancestors) (hancestors.cons_cons frame)
    · exact .inr ⟨hbad, hwrong.head hpush.rounds⟩

end

end SentryCocoa.MetricKit.Traversal
