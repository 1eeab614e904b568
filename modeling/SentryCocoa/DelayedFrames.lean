import SentryCocoa.FramesTracker
import SentryCocoa.Foundation
import SentryCocoa.Library.PartitionPoint

/-! The record of the delayed frames, which forgets what ended too long ago. The clock is read
twice for the start of the window that is kept, and when the window reaches back to the start
of the clock between the two readings, everything is forgotten. -/
namespace SentryCocoa.FramesTracker
open SentryCocoa.Foundation SentryCocoa.Library.Machine SentryCocoa.Library.PartitionPoint

/-- The sum has 64 bits. -/
def SentryDelayedFrame.frameEndSystemTimeStamp (frame : SentryDelayedFrame) : Nat :=
  wrap (frame.startSystemTimestamp + timeIntervalToNanoseconds frame.actualDuration)

namespace SentryDelayedFramesTracker
variable (tracker : SentryDelayedFramesTracker)

def transactionMaxDurationNS : Nat := timeIntervalToNanoseconds tracker.keepDelayedFramesDuration

/-- The window for the first reading, unless the second one is too early for a window. -/
def removeFramesBeforeSystemTimeStamp (systemTime systemTime' : Nat) : Nat :=
  if systemTime' < tracker.transactionMaxDurationNS then 0
  else wrap (systemTime - tracker.transactionMaxDurationNS : Int)

def firstKept (systemTime systemTime' : Nat) : Nat :=
  partitionPoint (fun frame : SentryDelayedFrame =>
      tracker.removeFramesBeforeSystemTimeStamp systemTime systemTime' ≤
        frame.frameEndSystemTimeStamp)
    tracker.delayedFrames 0 tracker.delayedFrames.length

/-- `removeOldDelayedFrames` with its two readings of the clock. -/
def removeOldDelayedFramesReading (systemTime systemTime' : Nat) : SentryDelayedFramesTracker :=
  { tracker with
    delayedFrames := tracker.delayedFrames.drop (tracker.firstKept systemTime systemTime') }

def recordDelayedFrameReading (startSystemTimestamp thisFrameSystemTimestamp : Nat)
    (expectedDuration actualDuration : ℚ) (systemTime systemTime' : Nat) :
    SentryDelayedFramesTracker :=
  let tracker := tracker.removeOldDelayedFramesReading systemTime systemTime'
  { tracker with
    delayedFrames := tracker.delayedFrames ++
      [⟨startSystemTimestamp, expectedDuration, actualDuration⟩]
    lastDelayedFrameSystemTimestamp := thisFrameSystemTimestamp
    previousFrameSystemTimestamp := thisFrameSystemTimestamp }

/-- No more is removed than there is. -/
theorem firstKept_le (systemTime systemTime' : Nat) :
    tracker.firstKept systemTime systemTime' ≤ tracker.delayedFrames.length :=
  (partitionPoint_mem _ tracker.delayedFrames (Nat.zero_le _)).2

/-- The frame ended inside of the window that is kept at the given time. -/
def inWindow (systemTime : Nat) (frame : SentryDelayedFrame) : Bool :=
  systemTime ≤ frame.frameEndSystemTimeStamp + tracker.transactionMaxDurationNS

end SentryDelayedFramesTracker

/-- A call of `recordDelayedFrame`, with the readings of the clock. -/
structure RecordDelayedFrame where
  startSystemTimestamp : Nat
  thisFrameSystemTimestamp : Nat
  expectedDuration : ℚ
  actualDuration : ℚ
  systemTime : Nat
  systemTime' : Nat

def RecordDelayedFrame.frame (call : RecordDelayedFrame) : SentryDelayedFrame :=
  ⟨call.startSystemTimestamp, call.expectedDuration, call.actualDuration⟩

/-- The tracker since a reset, with the frames recorded before the last call, the frame of that
call and its time. -/
structure Recording where
  tracker : SentryDelayedFramesTracker
  earlier : List SentryDelayedFrame
  last : Option (SentryDelayedFrame × Nat)
  clock : Nat

namespace Recording

def recorded (s : Recording) : List SentryDelayedFrame :=
  s.earlier ++ s.last.toList.map Prod.fst

def start (tracker : SentryDelayedFramesTracker) (systemTime : Nat) : Recording where
  tracker := tracker.resetDelayedFramesTimeStamps systemTime
  earlier := [⟨systemTime, 0, 0⟩]
  last := none
  clock := systemTime

/-- The clock does not go back, and the frames end in the order of the calls. -/
def step (s : Recording) (call : RecordDelayedFrame) : Option Recording :=
  if s.clock ≤ call.systemTime ∧ call.systemTime ≤ call.systemTime' ∧ call.systemTime' < 2 ^ 64 ∧
      ∀ last ∈ s.last, last.1.frameEndSystemTimeStamp ≤ call.frame.frameEndSystemTimeStamp then
    some {
      tracker := s.tracker.recordDelayedFrameReading call.startSystemTimestamp
        call.thisFrameSystemTimestamp call.expectedDuration call.actualDuration
        call.systemTime call.systemTime'
      earlier := s.recorded
      last := some (call.frame, call.systemTime)
      clock := call.systemTime' }
  else none

/-- The tracker holds the frame of the last call, and of all earlier ones exactly those that
ended in the window of that call. -/
def Exact (s : Recording) : Prop :=
  match s.last with
  | none => s.tracker.delayedFrames = s.earlier
  | some (frame, systemTime) =>
    s.tracker.delayedFrames = s.earlier.filter (s.tracker.inWindow systemTime) ++ [frame]

/-- The window does not get a start between the two readings, unless every frame ends at the end
of time; and the second frame held is in the window when the first one is. -/
structure Undisturbed (s : Recording) (call : RecordDelayedFrame) : Prop where
  readings : call.systemTime < s.tracker.transactionMaxDurationNS →
    s.tracker.transactionMaxDurationNS ≤ call.systemTime' →
    ∀ frame ∈ s.tracker.delayedFrames,
      2 ^ 64 + call.systemTime ≤
        frame.frameEndSystemTimeStamp + s.tracker.transactionMaxDurationNS
  first : ∀ first second rest, s.tracker.delayedFrames = first :: second :: rest →
    s.tracker.inWindow call.systemTime first = true →
    s.tracker.inWindow call.systemTime second = true

/-! One call. -/

/-- Unless the readings lie around the start of the window, the search is for the window. -/
theorem firstKept_eq {tracker : SentryDelayedFramesTracker} {systemTime systemTime' : Nat}
    (hle : systemTime ≤ systemTime') (hlt : systemTime' < 2 ^ 64)
    (h : tracker.transactionMaxDurationNS ≤ systemTime ∨
      systemTime' < tracker.transactionMaxDurationNS) :
    tracker.firstKept systemTime systemTime' =
      partitionPoint (tracker.inWindow systemTime) tracker.delayedFrames 0
        tracker.delayedFrames.length := by
  have hkeep : (fun frame : SentryDelayedFrame => decide
      (tracker.removeFramesBeforeSystemTimeStamp systemTime systemTime' ≤
        frame.frameEndSystemTimeStamp)) = tracker.inWindow systemTime := by
    funext frame
    unfold SentryDelayedFramesTracker.inWindow
      SentryDelayedFramesTracker.removeFramesBeforeSystemTimeStamp
    congr 1
    rw [eq_iff_iff]
    split
    · omega
    · unfold wrap
      omega
  unfold SentryDelayedFramesTracker.firstKept
  rw [hkeep]

/-- Between the two readings the window begins near the end of time. -/
theorem removeFramesBefore_of_straddle {tracker : SentryDelayedFramesTracker}
    {systemTime systemTime' : Nat} (hlt : systemTime' < 2 ^ 64)
    (hfirst : systemTime < tracker.transactionMaxDurationNS)
    (hsecond : tracker.transactionMaxDurationNS ≤ systemTime') :
    tracker.removeFramesBeforeSystemTimeStamp systemTime systemTime' +
      tracker.transactionMaxDurationNS = 2 ^ 64 + systemTime := by
  unfold SentryDelayedFramesTracker.removeFramesBeforeSystemTimeStamp wrap
  rw [if_neg (by omega)]
  omega

/-- When the frames behind the first one end in order, the list is divided by a window that does
not hold the first frame alone of the first two. -/
theorem divided_iff {tracker : SentryDelayedFramesTracker} {systemTime : Nat}
    (hsorted : tracker.delayedFrames.tail.Pairwise fun frame frame' =>
      frame.frameEndSystemTimeStamp ≤ frame'.frameEndSystemTimeStamp) :
    Divided (tracker.inWindow systemTime) tracker.delayedFrames ↔
      ∀ first second rest, tracker.delayedFrames = first :: second :: rest →
        tracker.inWindow systemTime first = true → tracker.inWindow systemTime second = true := by
  have hmono : ∀ frame frame' : SentryDelayedFrame,
      frame.frameEndSystemTimeStamp ≤ frame'.frameEndSystemTimeStamp →
      tracker.inWindow systemTime frame = true → tracker.inWindow systemTime frame' = true := by
    intro frame frame' hle hin
    simp only [SentryDelayedFramesTracker.inWindow, decide_eq_true_eq] at hin ⊢
    omega
  unfold Divided
  match h : tracker.delayedFrames with
  | [] => simp
  | [first] => simp
  | first :: second :: rest =>
    rw [h, List.tail_cons] at hsorted
    have htail := hsorted.imp fun hle => hmono _ _ hle
    have hsecond := (List.pairwise_cons.mp hsorted).1
    rw [List.pairwise_cons]
    constructor
    · rintro ⟨hfirst, -⟩ first' second' rest' heq
      cases heq
      exact hfirst _ List.mem_cons_self
    · intro hfirst
      refine ⟨?_, htail⟩
      intro frame hframe hin
      have hin := hfirst first second rest rfl hin
      rcases List.mem_cons.mp hframe with rfl | hframe
      · exact hin
      · exact hmono second frame (hsecond frame hframe) hin

/-- Between the readings nothing is removed exactly when every frame ends at the end of time. -/
theorem firstKept_eq_zero_iff {tracker : SentryDelayedFramesTracker} {systemTime systemTime' : Nat}
    (hsorted : tracker.delayedFrames.tail.Pairwise fun frame frame' =>
      frame.frameEndSystemTimeStamp ≤ frame'.frameEndSystemTimeStamp)
    (hlt : systemTime' < 2 ^ 64) (hfirst : systemTime < tracker.transactionMaxDurationNS)
    (hsecond : tracker.transactionMaxDurationNS ≤ systemTime') :
    tracker.firstKept systemTime systemTime' = 0 ↔
      ∀ frame ∈ tracker.delayedFrames, 2 ^ 64 + systemTime ≤
        frame.frameEndSystemTimeStamp + tracker.transactionMaxDurationNS := by
  have hcut := removeFramesBefore_of_straddle hlt hfirst hsecond
  unfold SentryDelayedFramesTracker.firstKept
  constructor
  · intro hzero
    have hends : ∀ i (hi : i < tracker.delayedFrames.length), i < 2 →
        2 ^ 64 + systemTime ≤ tracker.delayedFrames[i].frameEndSystemTimeStamp +
          tracker.transactionMaxDurationNS := by
      intro i hi htwo
      have hkeep := keep_of_partitionPoint_eq_zero hzero hi hi htwo
      rw [decide_eq_true_eq] at hkeep
      omega
    match h : tracker.delayedFrames with
    | [] => exact fun frame hframe => nomatch hframe
    | [first] =>
      intro frame hframe
      obtain rfl := List.mem_singleton.mp hframe
      simpa [h] using hends 0 (by simp [h]) (by omega)
    | first :: second :: rest =>
      have hfirst : 2 ^ 64 + systemTime ≤ first.frameEndSystemTimeStamp +
          tracker.transactionMaxDurationNS := by
        simpa [h] using hends 0 (by simp [h]) (by omega)
      have hsecond : 2 ^ 64 + systemTime ≤ second.frameEndSystemTimeStamp +
          tracker.transactionMaxDurationNS := by
        simpa [h] using hends 1 (by simp [h]) (by omega)
      rw [h, List.tail_cons] at hsorted
      have hrest := (List.pairwise_cons.mp hsorted).1
      intro frame hframe
      rcases List.mem_cons.mp hframe with rfl | hframe
      · exact hfirst
      rcases List.mem_cons.mp hframe with rfl | hframe
      · exact hsecond
      · exact hsecond.trans (Nat.add_le_add_right (hrest frame hframe) _)
  · intro hends
    apply partitionPoint_eq ?_ le_rfl (Nat.zero_le _) le_rfl
    intro i hi
    have hend := hends _ (List.getElem_mem hi)
    simp only [decide_eq_true_eq, Nat.zero_le, iff_true]
    omega

/-- The pruning keeps exactly the window when, and only when, nothing disturbs it. -/
theorem drop_firstKept_iff {s : Recording} {call : RecordDelayedFrame}
    (hne : s.tracker.delayedFrames ≠ [])
    (hsorted : s.tracker.delayedFrames.tail.Pairwise fun frame frame' =>
      frame.frameEndSystemTimeStamp ≤ frame'.frameEndSystemTimeStamp)
    (hle : call.systemTime ≤ call.systemTime') (hlt : call.systemTime' < 2 ^ 64) :
    s.tracker.delayedFrames.drop (s.tracker.firstKept call.systemTime call.systemTime') =
        s.tracker.delayedFrames.filter (s.tracker.inWindow call.systemTime) ↔
      Undisturbed s call := by
  by_cases hstraddle : s.tracker.transactionMaxDurationNS ≤ call.systemTime ∨
      call.systemTime' < s.tracker.transactionMaxDurationNS
  · rw [firstKept_eq hle hlt hstraddle, drop_partitionPoint_eq_filter_iff, divided_iff hsorted]
    exact ⟨fun h => ⟨fun hfirst hsecond => by omega, h⟩, Undisturbed.first⟩
  · rw [not_or, not_le, not_lt] at hstraddle
    obtain ⟨hfirst, hsecond⟩ := hstraddle
    have hin : ∀ frame ∈ s.tracker.delayedFrames,
        s.tracker.inWindow call.systemTime frame = true := by
      intro frame _
      simp only [SentryDelayedFramesTracker.inWindow, decide_eq_true_eq]
      omega
    have hzero : s.tracker.delayedFrames.drop
          (s.tracker.firstKept call.systemTime call.systemTime') = s.tracker.delayedFrames ↔
        s.tracker.firstKept call.systemTime call.systemTime' = 0 := by
      constructor
      · intro hdrop
        have hlength := congrArg List.length hdrop
        have hpos := List.length_pos_iff.mpr hne
        rw [List.length_drop] at hlength
        omega
      · intro h
        rw [h, List.drop_zero]
    rw [List.filter_eq_self.mpr hin, hzero, firstKept_eq_zero_iff hsorted hlt hfirst hsecond]
    constructor
    · intro hends
      refine ⟨fun _ _ => hends, ?_⟩
      intro first second rest h _
      exact hin second (by rw [h]; simp)
    · intro h
      exact h.readings hfirst hsecond

/-! All calls. -/

/-- What the calls keep: nothing that the tracker forgot is wanted again, and the frames behind
the first one end in order, the last recorded one last. -/
structure Inv (s : Recording) : Prop where
  exact : Exact s
  held : ∀ systemTime, s.clock ≤ systemTime →
    s.recorded.filter (s.tracker.inWindow systemTime) =
      s.tracker.delayedFrames.filter (s.tracker.inWindow systemTime)
  ne_nil : s.tracker.delayedFrames ≠ []
  sorted : s.tracker.delayedFrames.tail.Pairwise fun frame frame' =>
    frame.frameEndSystemTimeStamp ≤ frame'.frameEndSystemTimeStamp
  last_le : ∀ frame ∈ s.tracker.delayedFrames.tail, ∃ last ∈ s.last,
    frame.frameEndSystemTimeStamp ≤ last.1.frameEndSystemTimeStamp

theorem inv_start (tracker : SentryDelayedFramesTracker) (systemTime : Nat) :
    Inv (start tracker systemTime) where
  exact := rfl
  held _ _ := rfl
  ne_nil := by simp [start, SentryDelayedFramesTracker.resetDelayedFramesTimeStamps]
  sorted := by simp [start, SentryDelayedFramesTracker.resetDelayedFramesTimeStamps]
  last_le := by simp [start, SentryDelayedFramesTracker.resetDelayedFramesTimeStamps]

/-- What a call does. -/
theorem step_eq {s s' : Recording} {call : RecordDelayedFrame} (h : step s call = some s') :
    (s.clock ≤ call.systemTime ∧ call.systemTime ≤ call.systemTime' ∧
      call.systemTime' < 2 ^ 64) ∧
    (∀ last ∈ s.last,
      last.1.frameEndSystemTimeStamp ≤ call.frame.frameEndSystemTimeStamp) ∧
    s'.tracker.keepDelayedFramesDuration = s.tracker.keepDelayedFramesDuration ∧
    s'.tracker.delayedFrames = s.tracker.delayedFrames.drop
      (s.tracker.firstKept call.systemTime call.systemTime') ++ [call.frame] ∧
    s'.earlier = s.recorded ∧ s'.last = some (call.frame, call.systemTime) ∧
    s'.clock = call.systemTime' := by
  obtain ⟨⟨hclock, hle, hlt, hlast⟩, heq⟩ := Option.ite_none_right_eq_some.mp h
  cases heq
  exact ⟨⟨hclock, hle, hlt⟩, hlast, rfl, rfl, rfl, rfl, rfl⟩

theorem inWindow_congr {tracker tracker' : SentryDelayedFramesTracker}
    (h : tracker'.keepDelayedFramesDuration = tracker.keepDelayedFramesDuration) :
    tracker'.inWindow = tracker.inWindow := by
  funext systemTime frame
  unfold SentryDelayedFramesTracker.inWindow SentryDelayedFramesTracker.transactionMaxDurationNS
  rw [h]

/-- The record is exact behind a call exactly when nothing disturbs the call. -/
theorem exact_step_iff {s s' : Recording} {call : RecordDelayedFrame} (inv : Inv s)
    (h : step s call = some s') : Exact s' ↔ Undisturbed s call := by
  obtain ⟨⟨hclock, hle, hlt⟩, -, hkeep, hframes, hearlier, hlast, -⟩ := step_eq h
  unfold Exact
  rw [hlast, hframes, hearlier, inWindow_congr hkeep]
  dsimp only
  rw [List.append_left_inj, inv.held _ hclock]
  exact drop_firstKept_iff inv.ne_nil inv.sorted hle hlt

theorem tail_drop_append_sublist {α : Type} {l : List α} (hne : l ≠ []) (cut : Nat) (a : α) :
    (l.drop cut ++ [a]).tail.Sublist (l.tail ++ [a]) := by
  obtain ⟨first, rest, rfl⟩ := List.exists_cons_of_ne_nil hne
  cases cut with
  | zero => exact List.Sublist.refl _
  | succ cut =>
    rw [List.drop_succ_cons, List.tail_cons]
    exact (List.tail_sublist _).trans ((List.drop_sublist cut rest).append_right [a])

theorem step_inv {s s' : Recording} {call : RecordDelayedFrame} (inv : Inv s)
    (hok : Undisturbed s call) (h : step s call = some s') : Inv s' := by
  have hexact := (exact_step_iff inv h).mpr hok
  obtain ⟨⟨hclock, hle, hlt⟩, hends, hkeep, hframes, hearlier, hlast, hclock'⟩ := step_eq h
  have hsub : s'.tracker.delayedFrames.tail.Sublist
      (s.tracker.delayedFrames.tail ++ [call.frame]) := by
    rw [hframes]
    exact tail_drop_append_sublist inv.ne_nil _ _
  have hbelow : ∀ frame ∈ s.tracker.delayedFrames.tail,
      frame.frameEndSystemTimeStamp ≤ call.frame.frameEndSystemTimeStamp := by
    intro frame hframe
    obtain ⟨last, hmem, hle⟩ := inv.last_le frame hframe
    exact hle.trans (hends last hmem)
  have hpairwise : (s.tracker.delayedFrames.tail ++ [call.frame]).Pairwise fun frame frame' =>
      frame.frameEndSystemTimeStamp ≤ frame'.frameEndSystemTimeStamp := by
    rw [List.pairwise_append]
    refine ⟨inv.sorted, List.pairwise_singleton _ _, ?_⟩
    intro frame hframe frame' hframe'
    rw [List.mem_singleton.mp hframe']
    exact hbelow frame hframe
  refine ⟨hexact, ?_, ?_, hpairwise.sublist hsub, ?_⟩
  · intro systemTime hsystemTime
    rw [hclock'] at hsystemTime
    have hlater : ∀ frame, s.tracker.inWindow systemTime frame = true →
        s.tracker.inWindow call.systemTime frame = true := by
      intro frame hin
      simp only [SentryDelayedFramesTracker.inWindow, decide_eq_true_eq] at hin ⊢
      omega
    have hdrop := (drop_firstKept_iff inv.ne_nil inv.sorted hle hlt).mpr hok
    have hrecorded : s'.recorded = s.recorded ++ [call.frame] := by
      rw [recorded, hearlier, hlast]
      rfl
    rw [hrecorded, hframes, hdrop, inWindow_congr hkeep, List.filter_append, List.filter_append,
      inv.held systemTime (by omega), List.filter_filter]
    congr 1
    apply List.filter_congr
    intro frame _
    rw [Bool.eq_iff_iff, Bool.and_eq_true]
    exact ⟨fun hin => ⟨hin, hlater frame hin⟩, And.left⟩
  · rw [hframes]
    simp
  · intro frame hframe
    refine ⟨(call.frame, call.systemTime), hlast, ?_⟩
    rcases List.mem_append.mp (hsub.mem hframe) with hmem | hmem
    · exact hbelow frame hmem
    · rw [List.mem_singleton.mp hmem]

/-- After each call the record is exact as long as, and only as long as, nothing disturbs it. -/
theorem record_always_exact_iff (tracker : SentryDelayedFramesTracker) (systemTime : Nat)
    (calls : List RecordDelayedFrame) :
    Always step Exact (start tracker systemTime) calls ↔
      Allowed step Undisturbed (start tracker systemTime) calls :=
  always_iff_allowed (fun _ inv => inv.exact) (fun _ _ _ inv hok h => step_inv inv hok h)
    (fun _ _ _ inv hno h hexact => hno ((exact_step_iff inv h).mp hexact))
    (inv_start tracker systemTime) calls

/-- The window of 500 seconds gets its start between the two readings. -/
def exampleCall : RecordDelayedFrame where
  startSystemTimestamp := 499300000000
  thisFrameSystemTimestamp := 499999999000
  expectedDuration := 1 / 59
  actualDuration := 7 / 10
  systemTime := 499999999999
  systemTime' := 500000000000

theorem not_always_exact_at_window_start :
    ¬ Always step Exact (start ⟨500, [], 0, 0⟩ 10000000000) [exampleCall] := by
  intro h
  have hkeep : (start ⟨500, [], 0, 0⟩ 10000000000).tracker.transactionMaxDurationNS =
      500000000000 := by decide +kernel
  obtain ⟨s', hstep⟩ : ∃ s', step (start ⟨500, [], 0, 0⟩ 10000000000) exampleCall = some s' := by
    unfold step
    rw [if_pos (by simp [start, exampleCall])]
    exact ⟨_, rfl⟩
  have hundisturbed := (exact_step_iff (inv_start _ _) hstep).mp (h.2 s' hstep).head
  have hends := hundisturbed.readings (by rw [hkeep]; decide) (by rw [hkeep]; decide)
    ⟨10000000000, 0, 0⟩ (by simp [start, SentryDelayedFramesTracker.resetDelayedFramesTimeStamps])
  rw [hkeep] at hends
  have hend : SentryDelayedFrame.frameEndSystemTimeStamp ⟨10000000000, 0, 0⟩ = 10000000000 := by
    decide +kernel
  rw [hend] at hends
  simp [exampleCall] at hends

end Recording

/-! With one reading, and no sum beyond 64 bits, this is the pruning of the frames tracker. -/

theorem firstToKeep_eq_partitionPoint (tracker : SentryDelayedFramesTracker)
    (removeFramesBefore left right : Nat) :
    tracker.firstToKeep removeFramesBefore left right =
      partitionPoint (fun frame : SentryDelayedFrame => decide (removeFramesBefore ≤
          frame.startSystemTimestamp + timeIntervalToNanoseconds frame.actualDuration))
        tracker.delayedFrames left right := by
  induction left, right using SentryDelayedFramesTracker.firstToKeep.induct tracker
      removeFramesBefore with
  | case1 left right hlt mid keep hkeep ih =>
    rw [SentryDelayedFramesTracker.firstToKeep, partitionPoint, if_pos hlt, if_pos hlt]
    dsimp only
    rw [if_pos hkeep, if_pos hkeep]
    exact ih
  | case2 left right hlt mid keep hdrop ih =>
    rw [SentryDelayedFramesTracker.firstToKeep, partitionPoint, if_pos hlt, if_pos hlt]
    dsimp only
    rw [if_neg hdrop, if_neg hdrop]
    exact ih
  | case3 left right hge =>
    rw [SentryDelayedFramesTracker.firstToKeep, partitionPoint, if_neg hge, if_neg hge]

theorem removeOldDelayedFramesReading_self {tracker : SentryDelayedFramesTracker}
    {systemTime : Nat} (hlt : systemTime < 2 ^ 64)
    (hends : ∀ frame ∈ tracker.delayedFrames,
      frame.startSystemTimestamp + timeIntervalToNanoseconds frame.actualDuration < 2 ^ 64) :
    tracker.removeOldDelayedFramesReading systemTime systemTime =
      tracker.removeOldDelayedFrames systemTime := by
  have hcut : tracker.removeFramesBeforeSystemTimeStamp systemTime systemTime =
      systemTime - timeIntervalToNanoseconds tracker.keepDelayedFramesDuration := by
    unfold SentryDelayedFramesTracker.removeFramesBeforeSystemTimeStamp
      SentryDelayedFramesTracker.transactionMaxDurationNS wrap
    split <;> omega
  unfold SentryDelayedFramesTracker.removeOldDelayedFramesReading
    SentryDelayedFramesTracker.removeOldDelayedFrames SentryDelayedFramesTracker.firstKept
  dsimp only
  rw [firstToKeep_eq_partitionPoint, hcut]
  congr 2
  apply partitionPoint_congr
  intro frame hframe
  have hend : frame.frameEndSystemTimeStamp =
      frame.startSystemTimestamp + timeIntervalToNanoseconds frame.actualDuration :=
    wrap_of_lt (hends frame hframe)
  rw [hend]

end SentryCocoa.FramesTracker
