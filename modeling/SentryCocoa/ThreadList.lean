import Mathlib.Data.List.Basic
import Mathlib.Data.Vector.Basic

/-! The threads of a report. They are listed when the context of the crash is made, and the report
finds the thread that crashed among those that the context has kept. -/
namespace SentryCocoa.ThreadList

abbrev Thread := UInt32

/-- The number of entries of `allThreads`. -/
def maxThreadCount : Nat := 100

structure SentryCrashMachineContext where
  thisThread : Thread
  allThreads : Vector Thread maxThreadCount
  threadCount : Int
  isCrashedContext : Bool

/-- What is at an index of `allThreads`; past its end are the other fields. -/
def SentryCrashMachineContext.threadAt (context : SentryCrashMachineContext)
    (fields : Nat → Thread) (i : Nat) : Thread :=
  if h : i < maxThreadCount then context.allThreads[i] else fields i

/-- The context, and the ports that were deallocated. The indices of `allThreads` that were used
are not in the source. -/
structure Listing where
  context : SentryCrashMachineContext
  indexed : List Nat
  deallocated : List Thread

namespace Listing

/-- `context->allThreads[i] = thread` -/
def store (listing : Listing) (i : Nat) (thread : Thread) : Listing :=
  { listing with
    context := { listing.context with
      allThreads := listing.context.allThreads.setIfInBounds i thread }
    indexed := listing.indexed ++ [i] }

/-- `mach_port_deallocate(thisTask, context->allThreads[i])` -/
def deallocate (fields : Nat → Thread) (listing : Listing) (i : Nat) : Listing :=
  { listing with
    indexed := listing.indexed ++ [i]
    deallocated := listing.deallocated ++ [listing.context.threadAt fields i] }

end Listing

/-- The cast of a count to `int`. -/
def toInt (count : Nat) : Int := Int.bmod count (2 ^ 32)

/-- `threads` is what `task_threads` returns. -/
def getThreadList (fields : Nat → Thread) (context : SentryCrashMachineContext)
    (threads : List Thread) : Listing :=
  let threadCount := if toInt threads.length > maxThreadCount then (maxThreadCount : Int)
    else toInt threads.length
  let listing : Listing := (List.range threadCount.toNat).foldl
    (fun listing i => listing.store i (threads.getD i 0)) ⟨context, [], []⟩
  let listing : Listing :=
    { listing with context := { listing.context with threadCount := threadCount } }
  (List.range threads.length).foldl (Listing.deallocate fields) listing

/-- The context of a thread that did not crash, which has no list. -/
def getContextForThread (thread : Thread) : SentryCrashMachineContext where
  thisThread := thread
  allThreads := Vector.replicate maxThreadCount 0
  threadCount := 0
  isCrashedContext := false

structure WrittenThread where
  thread : Thread
  index : Nat
  crashed : Bool
  deriving DecidableEq, Repr

def writeThread (machineContext : SentryCrashMachineContext) (threadIndex : Nat) : WrittenThread :=
  ⟨machineContext.thisThread, threadIndex, machineContext.isCrashedContext⟩

def writeAllThreads (fields : Nat → Thread) (context : SentryCrashMachineContext) :
    List WrittenThread :=
  (List.range context.threadCount.toNat).map fun i =>
    let thread := context.threadAt fields i
    if thread = context.thisThread then writeThread context i
    else writeThread (getContextForThread thread) i

/-! The two loops. -/

theorem foldl_deallocate (fields : Nat → Thread) (listing : Listing) (count : Nat) :
    (List.range count).foldl (Listing.deallocate fields) listing =
      { listing with
        indexed := listing.indexed ++ List.range count
        deallocated := listing.deallocated ++
          (List.range count).map (listing.context.threadAt fields) } := by
  induction count with
  | zero => simp
  | succ count ih =>
    rw [List.range_succ, List.foldl_append, ih]
    simp [Listing.deallocate]

theorem foldl_store (threads : List Thread) (listing : Listing) (count : Nat) :
    (List.range count).foldl (fun listing i => listing.store i (threads.getD i 0)) listing =
      { listing with
        context := { listing.context with
          allThreads := (List.range count).foldl
            (fun allThreads i => allThreads.setIfInBounds i (threads.getD i 0))
            listing.context.allThreads }
        indexed := listing.indexed ++ List.range count } := by
  induction count with
  | zero => simp
  | succ count ih =>
    rw [List.range_succ, List.foldl_append, List.foldl_append, ih]
    simp [Listing.store]

theorem getElem_stored (threads : List Thread) (allThreads : Vector Thread maxThreadCount)
    (count i : Nat) (hi : i < maxThreadCount) :
    ((List.range count).foldl
      (fun allThreads i => allThreads.setIfInBounds i (threads.getD i 0)) allThreads)[i] =
      if i < count then threads.getD i 0 else allThreads[i] := by
  induction count with
  | zero => rfl
  | succ count ih =>
    rw [List.range_succ, List.foldl_append, List.foldl_cons, List.foldl_nil,
      Vector.getElem_setIfInBounds hi, ih]
    by_cases h : count = i
    · rw [if_pos h, if_pos (by omega), h]
    · rw [if_neg h]
      by_cases hlt : i < count
      · rw [if_pos hlt, if_pos (by omega)]
      · rw [if_neg hlt, if_neg (by omega)]

/-- The number of threads that are kept. -/
theorem kept_eq {threads : List Thread} (h : threads.length < 2 ^ 31) :
    (if toInt threads.length > maxThreadCount then (maxThreadCount : Int)
      else toInt threads.length) = (min maxThreadCount threads.length : Nat) := by
  have hint : toInt threads.length = threads.length := by
    unfold toInt
    exact Int.bmod_eq_of_le (by omega) (by omega)
  rw [hint]
  split <;> omega

/-- The context with the threads that it keeps. -/
def SentryCrashMachineContext.keep (context : SentryCrashMachineContext) (threads : List Thread) :
    SentryCrashMachineContext :=
  { context with
    allThreads := (List.range (min maxThreadCount threads.length)).foldl
      (fun allThreads i => allThreads.setIfInBounds i (threads.getD i 0)) context.allThreads
    threadCount := (min maxThreadCount threads.length : Nat) }

theorem getThreadList_eq (fields : Nat → Thread) (context : SentryCrashMachineContext)
    {threads : List Thread} (h : threads.length < 2 ^ 31) :
    getThreadList fields context threads =
      { context := context.keep threads
        indexed := List.range (min maxThreadCount threads.length) ++ List.range threads.length
        deallocated := (List.range threads.length).map
          ((context.keep threads).threadAt fields) } := by
  unfold getThreadList
  rw [kept_eq h]
  dsimp only
  rw [foldl_deallocate, foldl_store, Int.toNat_natCast]
  rfl

/-- Every port has an index that is used. -/
theorem mem_indexed (fields : Nat → Thread) (context : SentryCrashMachineContext)
    {threads : List Thread} {i : Nat} (h : i < threads.length) :
    i ∈ (getThreadList fields context threads).indexed := by
  unfold getThreadList
  dsimp only
  rw [foldl_deallocate]
  exact List.mem_append_right _ (List.mem_range.2 h)

theorem threadAt_keep (fields : Nat → Thread) (context : SentryCrashMachineContext)
    {threads : List Thread} {i : Nat} (hi : i < min maxThreadCount threads.length) :
    (context.keep threads).threadAt fields i = threads.getD i 0 := by
  unfold SentryCrashMachineContext.threadAt SentryCrashMachineContext.keep
  dsimp only
  rw [dif_pos (by omega), getElem_stored, if_pos hi]

theorem map_thread_writeAllThreads (fields : Nat → Thread) (context : SentryCrashMachineContext) :
    (writeAllThreads fields context).map WrittenThread.thread =
      (List.range context.threadCount.toNat).map (context.threadAt fields) := by
  unfold writeAllThreads
  rw [List.map_map]
  apply List.map_congr_left
  intro i _
  dsimp only [Function.comp_apply]
  split
  · rename_i heq
    exact heq.symm
  · rfl

/-- The threads that are kept are written once each, in the order of the list. -/
theorem writeAllThreads_keep (fields : Nat → Thread) (context : SentryCrashMachineContext)
    (threads : List Thread) :
    writeAllThreads fields (context.keep threads) =
      (threads.take maxThreadCount).mapIdx fun i thread =>
        ⟨thread, i, decide (thread = context.thisThread) && context.isCrashedContext⟩ := by
  have hlength : (threads.take maxThreadCount).length = min maxThreadCount threads.length :=
    List.length_take
  unfold writeAllThreads
  apply List.ext_getElem
  · rw [List.length_map, List.length_range, List.length_mapIdx, hlength]
    rfl
  · intro i hi _
    rw [List.length_map, List.length_range] at hi
    have hmin : i < min maxThreadCount threads.length := hi
    have hget : threads.getD i 0 = threads[i] := (List.getElem_eq_getD 0).symm
    rw [List.getElem_map, List.getElem_mapIdx, List.getElem_range, List.getElem_take,
      threadAt_keep fields context hmin, hget]
    change (if threads[i] = context.thisThread then writeThread (context.keep threads) i
      else writeThread (getContextForThread threads[i]) i) = _
    by_cases hthread : threads[i] = context.thisThread
    · rw [if_pos hthread, hthread, decide_eq_true rfl, Bool.true_and]
      rfl
    · rw [if_neg hthread, decide_eq_false hthread, Bool.false_and]
      rfl

/-- The context of a crash before its threads are listed. -/
def crashContext (offendingThread : Thread) (allThreads : Vector Thread maxThreadCount)
    (threadCount : Int) : SentryCrashMachineContext :=
  ⟨offendingThread, allThreads, threadCount, true⟩

/-- What is listed stays inside the array, is deallocated and is written, with the thread that
crashed. -/
structure Complete (fields : Nat → Thread) (context : SentryCrashMachineContext)
    (threads : List Thread) : Prop where
  indexed : ∀ i ∈ (getThreadList fields context threads).indexed, i < maxThreadCount
  deallocated : (getThreadList fields context threads).deallocated.Perm threads
  written :
    let listed := (getThreadList fields context threads).context
    (writeAllThreads fields listed).map WrittenThread.thread =
      (List.range listed.threadCount.toNat).map (listed.threadAt fields)
  offending : ∃ written ∈ writeAllThreads fields (getThreadList fields context threads).context,
    written.thread = context.thisThread ∧ written.crashed = true

theorem complete_iff (fields : Nat → Thread) (allThreads : Vector Thread maxThreadCount)
    (threadCount : Int) {offendingThread : Thread} {threads : List Thread}
    (h : offendingThread ∈ threads) :
    Complete fields (crashContext offendingThread allThreads threadCount) threads ↔
      threads.length ≤ maxThreadCount := by
  constructor
  · intro hcomplete
    by_contra hlong
    have hindex := hcomplete.indexed maxThreadCount (mem_indexed fields _ (by omega))
    exact Nat.lt_irrefl _ hindex
  · intro hshort
    have hmin : min maxThreadCount threads.length = threads.length := min_eq_right hshort
    have hsize : threads.length < 2 ^ 31 := hshort.trans_lt (by decide)
    have hall : (List.range threads.length).map
        (((crashContext offendingThread allThreads threadCount).keep threads).threadAt fields) =
        threads := by
      apply List.ext_getElem
      · rw [List.length_map, List.length_range]
      · intro i hi _
        rw [List.length_map, List.length_range] at hi
        rw [List.getElem_map, List.getElem_range, threadAt_keep fields _ (by omega)]
        exact (List.getElem_eq_getD 0).symm
    have heq := getThreadList_eq fields (crashContext offendingThread allThreads threadCount) hsize
    have hwritten := writeAllThreads_keep fields
      (crashContext offendingThread allThreads threadCount) threads
    rw [List.take_of_length_le hshort] at hwritten
    constructor
    case indexed =>
      intro i hi
      rw [heq, hmin, List.mem_append, or_self, List.mem_range] at hi
      exact hi.trans_le hshort
    case deallocated =>
      rw [heq]
      exact List.Perm.of_eq hall
    case written =>
      exact map_thread_writeAllThreads fields _
    case offending =>
      rw [heq, hwritten]
      obtain ⟨i, hi, hget⟩ := List.getElem_of_mem h
      refine ⟨_, List.mem_mapIdx.2 ⟨i, hi, rfl⟩, hget, ?_⟩
      exact Bool.and_eq_true_iff.2 ⟨decide_eq_true hget, rfl⟩

theorem complete_two :
    Complete (fun _ => 0) (crashContext 7 (Vector.replicate maxThreadCount 0) 0) [5, 7] :=
  (complete_iff (fun _ => 0) (Vector.replicate maxThreadCount 0) 0
    (List.mem_cons_of_mem 5 List.mem_cons_self)).2 (by decide)

/-- With one thread too many, the last one is neither kept nor written. Behind the array is the
number of threads, and the port of that number is deallocated twice. -/
theorem last_of_101_is_lost :
    let threads := (List.range 101).map fun i => UInt32.ofNat (i + 1)
    let context := crashContext 101 (Vector.replicate maxThreadCount 0) 0
    let listing := getThreadList (fun _ => 100) context threads
    100 ∈ listing.indexed ∧ listing.deallocated.count 100 = 2 ∧ 101 ∉ listing.deallocated ∧
      101 ∉ (writeAllThreads (fun _ => 100) listing.context).map WrittenThread.thread ∧
      ¬ Complete (fun _ => 100) context threads := by
  intro threads context listing
  have hindexed : 100 ∈ listing.indexed := mem_indexed (fun _ => 100) context (by decide)
  refine ⟨hindexed, by decide +kernel, by decide +kernel, by decide +kernel, fun hcomplete => ?_⟩
  exact Nat.lt_irrefl _ (hcomplete.indexed 100 hindexed)

end SentryCocoa.ThreadList
