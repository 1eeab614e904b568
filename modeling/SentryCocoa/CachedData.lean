import Mathlib.Data.Nat.Find
import Mathlib.Logic.Function.Basic
import SentryCocoa.Library.Preemption
import SentryCocoa.ThreadList

/-! The names of the threads and of the queues, cached while the process runs. A crash can stop the
updating thread between any two statements, and the names are then read from what it left. -/
namespace SentryCocoa.CachedData

open Library.Machine Library.Preemption
open ThreadList (toInt)

/-- The arrays that are cached. Each has a global variable and a local one of the update. -/
inductive Cached where
  | allMachThreads
  | allPThreads
  | allThreadNames
  | allQueueNames
  deriving DecidableEq, Repr

/-- Arrays and names by their addresses; `none` is freed. The words of an array are threads or
addresses of names, where 0 is the null pointer. What has been recorded for which thread is not in
the source. -/
structure Heap where
  arrays : List (Option (List Nat))
  names : List (Option String)
  recorded : List (Nat × String)

namespace Heap

def block (heap : Heap) (pointer : Option Nat) : Option (List Nat) :=
  pointer.bind fun address => heap.arrays[address]?.join

/-- The read is `none` for a null pointer, a freed array and an index outside the array. -/
def read (heap : Heap) (pointer : Option Nat) (i : Nat) : Option Nat :=
  (heap.block pointer).bind fun words => words[i]?

def allocated (heap : Heap) (pointer : Option Nat) : Nat :=
  ((heap.block pointer).map List.length).getD 0

def store (heap : Heap) (pointer : Option Nat) (i word : Nat) : Heap :=
  match pointer with
  | none => heap
  | some address =>
    { heap with arrays := heap.arrays.modify address (Option.map fun words => words.set i word) }

def free (heap : Heap) (pointer : Option Nat) : Heap :=
  match pointer with
  | none => heap
  | some address => { heap with arrays := heap.arrays.set address none }

def freeName (heap : Heap) (name : Nat) : Heap :=
  if name = 0 then heap else { heap with names := heap.names.set name none }

/-- The null pointer, or a name that is not freed and was recorded for the thread. -/
def Recorded (heap : Heap) (thread name : Nat) : Prop :=
  name = 0 ∨ ∃ text, heap.names[name]? = some (some text) ∧ (thread, text) ∈ heap.recorded

end Heap

/-- The global variables, with the local variables of the update in `held`. -/
structure Cache where
  heap : Heap
  global : Cached → Option Nat
  held : Cached → Option Nat
  temp : Option Nat
  allThreadsCount : Int

/-- The static variables of a process that starts. No name has the address 0. -/
def start : Cache where
  heap := ⟨[], [none], []⟩
  global := fun _ => none
  held := fun _ => none
  temp := none
  allThreadsCount := 0

/-- The statements of `updateThreadList`. -/
inductive Statement where
  | calloc (array : Cached) (allThreadsCount : Nat)
  | store (array : Cached) (i word : Nat)
  | strdup (i thread : Nat) (buffer : String)
  | lowerCount (allThreadsCount : Nat)
  | saveGlobal (array : Cached)
  | assignGlobal (array : Cached)
  | assignHeld (array : Cached)
  | setCount (allThreadsCount : Nat)
  | free (array : Cached)
  | freeName (array : Cached) (i : Nat)

def exec (s : Cache) : Statement → Cache
  | .calloc array allThreadsCount =>
    { s with
      heap := { s.heap with
        arrays := s.heap.arrays ++ [some (List.replicate allThreadsCount 0)] }
      held := Function.update s.held array (some s.heap.arrays.length) }
  | .store array i word => { s with heap := s.heap.store (s.held array) i word }
  | .strdup i thread buffer =>
    let heap := s.heap.store (s.held .allThreadNames) i s.heap.names.length
    { s with
      heap := { heap with
        names := heap.names ++ [some buffer]
        recorded := heap.recorded ++ [(thread, buffer)] } }
  | .lowerCount allThreadsCount =>
    { s with
      allThreadsCount :=
        if s.allThreadsCount < toInt allThreadsCount then s.allThreadsCount
        else toInt allThreadsCount }
  | .saveGlobal array => { s with temp := s.global array }
  | .assignGlobal array => { s with global := Function.update s.global array (s.held array) }
  | .assignHeld array => { s with held := Function.update s.held array s.temp }
  | .setCount allThreadsCount => { s with allThreadsCount := toInt allThreadsCount }
  | .free array => { s with heap := s.heap.free (s.held array) }
  | .freeName array i =>
    match s.heap.read (s.held array) i with
    | none => s
    | some name => { s with heap := s.heap.freeName name }

/-- A thread of `task_threads`, with its pthread, or 0, and the name that `pthread_getname_np`
writes, if it can. -/
structure Listed where
  thread : Nat
  pthread : Nat
  name : Option String

/-- The body of the loop over the threads. -/
def record (i : Nat) (listed : Listed) : List Statement :=
  [.store .allMachThreads i listed.thread, .store .allPThreads i listed.pthread] ++
    match listed.name with
    | none => []
    | some buffer =>
      if listed.pthread ≠ 0 ∧ buffer ≠ "" then [.strdup i listed.thread buffer] else []

def recordFrom : Nat → List Listed → List Statement
  | _, [] => []
  | i, listed :: rest => record i listed ++ recordFrom (i + 1) rest

/-- `SWAP_POINTERS` of the global variable and the local one. -/
def swapPointers (array : Cached) : List Statement :=
  [.saveGlobal array, .assignGlobal array, .assignHeld array]

def freeNames (array : Cached) (oldThreadsCount : Int) : List Statement :=
  (List.range oldThreadsCount.toNat).map (.freeName array) ++ [.free array]

/-- `none` is a failure of `task_threads`. -/
def updateThreadList (s : Cache) : Option (List Listed) → List Statement
  | none => []
  | some threads =>
    let oldThreadsCount := s.allThreadsCount
    let allThreadsCount := threads.length
    [.calloc .allMachThreads allThreadsCount, .calloc .allPThreads allThreadsCount,
      .calloc .allThreadNames allThreadsCount, .calloc .allQueueNames allThreadsCount] ++
    recordFrom 0 threads ++
    [.lowerCount allThreadsCount] ++
    swapPointers .allMachThreads ++ swapPointers .allPThreads ++
    swapPointers .allThreadNames ++ swapPointers .allQueueNames ++
    [.setCount allThreadsCount] ++
    [.free .allMachThreads, .free .allPThreads] ++
    freeNames .allThreadNames oldThreadsCount ++ freeNames .allQueueNames oldThreadsCount

/-- The loop of the readers, over the indices that are left. -/
def Cache.findName (s : Cache) (array : Cached) (thread : Nat) : List Nat → Option Nat
  | [] => some 0
  | i :: rest =>
    (s.heap.read (s.global .allMachThreads) i).bind fun found =>
      if found = thread then s.heap.read (s.global array) i else s.findName array thread rest

def Cache.getName (s : Cache) (array : Cached) (thread : Nat) : Option Nat :=
  if s.global array = none then some 0
  else s.findName array thread (List.range s.allThreadsCount.toNat)

/-- `none` is an access outside an array that is allocated. -/
def Cache.getThreadName (s : Cache) (thread : Nat) : Option Nat := s.getName .allThreadNames thread

def Cache.getQueueName (s : Cache) (thread : Nat) : Option Nat := s.getName .allQueueNames thread

/-- What a reader needs: its indices are inside all four arrays, and the name that it returns was
recorded for the thread. -/
structure Safe (s : Cache) : Prop where
  inside : ∀ array, s.allThreadsCount.toNat ≤ s.heap.allocated (s.global array)
  threadName : ∀ thread, ∃ name, s.getThreadName thread = some name ∧ s.heap.Recorded thread name
  queueName : ∀ thread, ∃ name, s.getQueueName thread = some name ∧ s.heap.Recorded thread name

/-- Below the count, the name at the first index of a thread was recorded for the thread. -/
def Fits (heap : Heap) (count : Int) (threads names : Option Nat) : Prop :=
  ∀ i < count.toNat, ∀ thread name, heap.read threads i = some thread →
    (∀ j < i, heap.read threads j ≠ some thread) → heap.read names i = some name →
    heap.Recorded thread name

/-- When the new threads are put in place, they fit to the old names. -/
def KeepsNames (s : Cache) : Statement → Prop
  | .assignGlobal .allMachThreads =>
    Fits s.heap s.allThreadsCount (s.held .allMachThreads) (s.global .allThreadNames)
  | _ => True

/-! The readers. -/

theorem Heap.read_isSome {heap : Heap} {pointer : Option Nat} {i : Nat}
    (h : i < heap.allocated pointer) : ∃ word, heap.read pointer i = some word := by
  unfold Heap.allocated at h
  unfold Heap.read
  cases hblock : heap.block pointer with
  | none =>
    rw [hblock] at h
    exact absurd h (Nat.not_lt_zero i)
  | some words =>
    rw [hblock] at h
    exact ⟨words[i], List.getElem?_eq_getElem h⟩

/-- The indices of other threads are passed over. -/
theorem findName_append (s : Cache) (array : Cached) (thread : Nat) {before : List Nat}
    (h : ∀ i ∈ before, ∃ other, s.heap.read (s.global .allMachThreads) i = some other ∧
      other ≠ thread) (rest : List Nat) :
    s.findName array thread (before ++ rest) = s.findName array thread rest := by
  induction before with
  | nil => rfl
  | cons i before ih =>
    obtain ⟨other, hread, hne⟩ := h i List.mem_cons_self
    rw [List.cons_append, Cache.findName, hread, Option.bind_some, if_neg hne]
    exact ih fun j hj => h j (List.mem_cons_of_mem i hj)

section Readers

variable {s : Cache} (inside : ∀ array, s.allThreadsCount.toNat ≤ s.heap.allocated (s.global array))
include inside

theorem passed_over {thread i : Nat} (hi : i ≤ s.allThreadsCount.toNat)
    (h : ∀ j < i, s.heap.read (s.global .allMachThreads) j ≠ some thread) :
    ∀ j ∈ List.range i, ∃ other,
      s.heap.read (s.global .allMachThreads) j = some other ∧ other ≠ thread := by
  intro j hj
  have hlt : j < i := List.mem_range.1 hj
  obtain ⟨other, hread⟩ := Heap.read_isSome (hlt.trans_le (hi.trans (inside .allMachThreads)))
  refine ⟨other, hread, fun heq => h j hlt ?_⟩
  rw [hread, heq]

/-- The name of a thread is at the first index of the thread. -/
theorem getName_of_first {array : Cached} {thread i : Nat} (hi : i < s.allThreadsCount.toNat)
    (hthread : s.heap.read (s.global .allMachThreads) i = some thread)
    (hfirst : ∀ j < i, s.heap.read (s.global .allMachThreads) j ≠ some thread) :
    s.getName array thread = s.heap.read (s.global array) i := by
  have hnull : s.global array ≠ none := by
    intro hnone
    have hlt := hi.trans_le (inside array)
    rw [hnone] at hlt
    exact absurd hlt (Nat.not_lt_zero i)
  have hrange : List.range s.allThreadsCount.toNat =
      List.range i ++ i :: List.range' (i + 1) (s.allThreadsCount.toNat - (i + 1)) := by
    have happend := List.range'_append_1 (s := 0) (m := i) (n := s.allThreadsCount.toNat - i)
    rw [Nat.zero_add, Nat.add_sub_cancel' hi.le] at happend
    rw [List.range_eq_range', List.range_eq_range', ← List.range'_succ, ← happend]
    congr 2
    omega
  rw [Cache.getName, if_neg hnull, hrange,
    findName_append s array thread (passed_over inside hi.le hfirst), Cache.findName, hthread,
    Option.bind_some, if_pos rfl]

theorem getName_of_absent {array : Cached} {thread : Nat}
    (h : ∀ j < s.allThreadsCount.toNat, s.heap.read (s.global .allMachThreads) j ≠ some thread) :
    s.getName array thread = some 0 := by
  unfold Cache.getName
  split
  · rfl
  · have happend := findName_append s array thread (passed_over inside (Nat.le_refl _) h) []
    rw [List.append_nil] at happend
    rw [happend]
    rfl

theorem recorded_iff_fits (array : Cached) :
    (∀ thread, ∃ name, s.getName array thread = some name ∧ s.heap.Recorded thread name) ↔
      Fits s.heap s.allThreadsCount (s.global .allMachThreads) (s.global array) := by
  constructor
  · intro h i hi thread name hthread hfirst hname
    obtain ⟨found, hfound, hrecorded⟩ := h thread
    rw [getName_of_first inside hi hthread hfirst, hname] at hfound
    cases hfound
    exact hrecorded
  · intro hfits thread
    by_cases hex : ∃ i, i < s.allThreadsCount.toNat ∧
        s.heap.read (s.global .allMachThreads) i = some thread
    · classical
      obtain ⟨hlt, hthread⟩ := Nat.find_spec hex
      have hfirst : ∀ j < Nat.find hex,
          s.heap.read (s.global .allMachThreads) j ≠ some thread :=
        fun j hj heq => Nat.find_min hex hj ⟨hj.trans hlt, heq⟩
      obtain ⟨name, hname⟩ := Heap.read_isSome (hlt.trans_le (inside array))
      refine ⟨name, ?_, hfits _ hlt thread name hthread hfirst hname⟩
      rw [getName_of_first inside hlt hthread hfirst, hname]
    · refine ⟨0, getName_of_absent inside fun j hj heq => hex ⟨j, hj, heq⟩, Or.inl rfl⟩

end Readers

theorem safe_iff (s : Cache) :
    Safe s ↔ (∀ array, s.allThreadsCount.toNat ≤ s.heap.allocated (s.global array)) ∧
      Fits s.heap s.allThreadsCount (s.global .allMachThreads) (s.global .allThreadNames) ∧
      Fits s.heap s.allThreadsCount (s.global .allMachThreads) (s.global .allQueueNames) := by
  constructor
  · rintro ⟨inside, hthread, hqueue⟩
    exact ⟨inside, (recorded_iff_fits inside _).1 hthread, (recorded_iff_fits inside _).1 hqueue⟩
  · rintro ⟨inside, hthread, hqueue⟩
    exact ⟨inside, (recorded_iff_fits inside _).2 hthread, (recorded_iff_fits inside _).2 hqueue⟩

/-- Threads that do not fit are seen at once. -/
theorem not_safe_of_not_keepsNames (s : Cache) (statement : Statement)
    (h : ¬ KeepsNames s statement) : ¬ Safe (exec s statement) := by
  intro hsafe
  apply h
  unfold KeepsNames
  split
  · exact ((safe_iff _).1 hsafe).2.1
  · trivial

/-! Between two updates. -/

/-- The names at all indices were recorded for the threads there. -/
def Paired (heap : Heap) (threads names : Option Nat) : Prop :=
  ∀ i thread name, heap.read threads i = some thread → heap.read names i = some name →
    heap.Recorded thread name

theorem Paired.fits {heap : Heap} {threads names : Option Nat} (h : Paired heap threads names)
    (count : Int) : Fits heap count threads names :=
  fun i _ thread name hthread _ hname => h i thread name hthread hname

/-- The array has null pointers only. -/
def Unnamed (heap : Heap) (names : Option Nat) : Prop :=
  ∀ i name, heap.read names i = some name → name = 0

theorem Unnamed.fits {heap : Heap} {names : Option Nat} (h : Unnamed heap names) (count : Int)
    (threads : Option Nat) : Fits heap count threads names :=
  fun i _ _ name _ _ hname => Or.inl (h i name hname)

/-- The global variables are complete, and what they point to was allocated before. -/
structure Idle (s : Cache) : Prop where
  inside : ∀ array, s.allThreadsCount.toNat ≤ s.heap.allocated (s.global array)
  paired : Paired s.heap (s.global .allMachThreads) (s.global .allThreadNames)
  unnamed : Unnamed s.heap (s.global .allQueueNames)
  address : ∀ array address, s.global array = some address → address < s.heap.arrays.length
  name : ∀ i name, s.heap.read (s.global .allThreadNames) i = some name →
    name = 0 ∨ name < s.heap.names.length

theorem Idle.safe {s : Cache} (h : Idle s) : Safe s :=
  (safe_iff s).2 ⟨h.inside, h.paired.fits _, h.unnamed.fits _ _⟩

theorem idle_start : Idle start where
  inside := fun _ => Nat.le_refl 0
  paired := fun _ _ _ h => nomatch h
  unnamed := fun _ _ h => nomatch h
  address := fun _ _ h => nomatch h
  name := fun _ _ h => nomatch h

/-! What the update has written before the first swap. -/

def Heap.append (heap : Heap) (arrays : List (Option (List Nat))) (names : List (Option String))
    (recorded : List (Nat × String)) : Heap :=
  ⟨heap.arrays ++ arrays, heap.names ++ names, heap.recorded ++ recorded⟩

section Append

variable (heap : Heap) (arrays : List (Option (List Nat))) (names : List (Option String))
  (recorded : List (Nat × String))

theorem block_append {pointer : Option Nat}
    (h : ∀ address, pointer = some address → address < heap.arrays.length) :
    (heap.append arrays names recorded).block pointer = heap.block pointer := by
  cases pointer with
  | none => rfl
  | some address =>
    unfold Heap.block Heap.append
    rw [Option.bind_some, Option.bind_some]
    dsimp only
    rw [List.getElem?_append_left (h address rfl)]

theorem read_append {pointer : Option Nat}
    (h : ∀ address, pointer = some address → address < heap.arrays.length) (i : Nat) :
    (heap.append arrays names recorded).read pointer i = heap.read pointer i := by
  rw [Heap.read, block_append heap arrays names recorded h, Heap.read]

variable {heap}

theorem recorded_append {thread name : Nat} (h : heap.Recorded thread name) :
    (heap.append arrays names recorded).Recorded thread name := by
  obtain hnull | ⟨text, htext, hmem⟩ := h
  · exact Or.inl hnull
  · obtain ⟨hlt, _⟩ := List.getElem?_eq_some_iff.1 htext
    exact Or.inr ⟨text, (List.getElem?_append_left hlt).trans htext, List.mem_append_left _ hmem⟩

/-- The readers do not see what is allocated. -/
theorem Idle.append {s t : Cache} (h : Idle s)
    (hheap : t.heap = s.heap.append arrays names recorded) (hglobal : t.global = s.global)
    (hcount : t.allThreadsCount = s.allThreadsCount) : Idle t := by
  have hread (array : Cached) (i : Nat) :
      t.heap.read (t.global array) i = s.heap.read (s.global array) i := by
    rw [hheap, hglobal]
    exact read_append s.heap arrays names recorded (h.address array) i
  constructor
  case inside =>
    intro array
    rw [hcount, hheap, hglobal, Heap.allocated,
      block_append s.heap arrays names recorded (h.address array)]
    exact h.inside array
  case paired =>
    intro i thread name hthread hname
    rw [hread] at hthread hname
    rw [hheap]
    exact recorded_append arrays names recorded (h.paired i thread name hthread hname)
  case unnamed =>
    intro i name hname
    rw [hread] at hname
    exact h.unnamed i name hname
  case address =>
    intro array address haddress
    rw [hglobal] at haddress
    rw [hheap, Heap.append, List.length_append]
    exact Nat.lt_add_right _ (h.address array address haddress)
  case name =>
    intro i name hname
    rw [hread] at hname
    rw [hheap, Heap.append, List.length_append]
    exact (h.name i name hname).imp_right fun hlt => Nat.lt_add_right _ hlt

end Append

/-- The contents of the four new arrays, and the names with what is recorded of them. -/
structure Draft where
  threads : List Nat
  pthreads : List Nat
  names : List Nat
  queues : List Nat
  texts : List (Option String)
  recorded : List (Nat × String)

def Draft.get (d : Draft) : Cached → List Nat
  | .allMachThreads => d.threads
  | .allPThreads => d.pthreads
  | .allThreadNames => d.names
  | .allQueueNames => d.queues

def Heap.extend (heap : Heap) (d : Draft) : Heap :=
  heap.append [some d.threads, some d.pthreads, some d.names, some d.queues] d.texts d.recorded

def Cached.index : Cached → Nat
  | .allMachThreads => 0
  | .allPThreads => 1
  | .allThreadNames => 2
  | .allQueueNames => 3

/-- The new arrays are in the order of their allocation behind the old ones. -/
def Cache.drafted (s : Cache) (d : Draft) : Cache :=
  { s with
    heap := s.heap.extend d
    held := fun array => some (s.heap.arrays.length + array.index) }

theorem block_extend (heap : Heap) (d : Draft) (array : Cached) :
    (heap.extend d).block (some (heap.arrays.length + array.index)) = some (d.get array) := by
  unfold Heap.block Heap.extend Heap.append
  rw [Option.bind_some]
  dsimp only
  rw [List.getElem?_append_right (Nat.le_add_right _ _), Nat.add_sub_cancel_left]
  cases array <;> rfl

theorem read_extend (heap : Heap) (d : Draft) (array : Cached) (i : Nat) :
    (heap.extend d).read (some (heap.arrays.length + array.index)) i = (d.get array)[i]? := by
  rw [Heap.read, block_extend, Option.bind_some]

theorem Idle.drafted {s : Cache} (h : Idle s) (d : Draft) : Idle (s.drafted d) :=
  h.append _ d.texts d.recorded rfl rfl rfl

/-- The arrays as `calloc` returns them. -/
def Draft.zero (allThreadsCount : Nat) : Draft where
  threads := List.replicate allThreadsCount 0
  pthreads := List.replicate allThreadsCount 0
  names := List.replicate allThreadsCount 0
  queues := List.replicate allThreadsCount 0
  texts := []
  recorded := []

theorem Idle.calloc {s : Cache} (h : Idle s) (array : Cached) (allThreadsCount : Nat) :
    Idle (exec s (.calloc array allThreadsCount)) := by
  refine h.append [some (List.replicate allThreadsCount 0)] [] [] ?_ rfl rfl
  unfold exec Heap.append
  rw [List.append_nil, List.append_nil]

theorem leads_calloc {s : Cache} (h : Idle s) (allThreadsCount : Nat) :
    Leads exec KeepsNames Safe (fun t => t = s.drafted (Draft.zero allThreadsCount))
      [.calloc .allMachThreads allThreadsCount, .calloc .allPThreads allThreadsCount,
        .calloc .allThreadNames allThreadsCount, .calloc .allQueueNames allThreadsCount] s := by
  have h₁ := h.calloc .allMachThreads allThreadsCount
  have h₂ := h₁.calloc .allPThreads allThreadsCount
  have h₃ := h₂.calloc .allThreadNames allThreadsCount
  have h₄ := h₃.calloc .allQueueNames allThreadsCount
  refine ⟨h.safe, fun _ => ⟨h₁.safe, fun _ => ?_⟩⟩
  refine ⟨h₂.safe, fun _ => ⟨h₃.safe, fun _ => ⟨h₄.safe, ?_⟩⟩⟩
  unfold exec Cache.drafted Heap.extend Heap.append Draft.zero
  dsimp only
  congr 1
  · simp
  · funext array
    cases array <;> simp [Cached.index]

/-- The draft when the threads below an index are written. -/
structure Draft.Written (d : Draft) (heap : Heap) (k allThreadsCount : Nat) : Prop where
  length : ∀ array, (d.get array).length = allThreadsCount
  unset : ∀ i name : Nat, k ≤ i → d.names[i]? = some name → name = 0
  paired : ∀ i thread name : Nat, d.threads[i]? = some thread → d.names[i]? = some name →
    name = 0 ∨ heap.names.length ≤ name ∧
      ∃ text, (heap.names ++ d.texts)[name]? = some (some text) ∧ (thread, text) ∈ d.recorded
  queues : ∀ i name : Nat, d.queues[i]? = some name → name = 0

theorem written_zero (heap : Heap) (allThreadsCount : Nat) :
    (Draft.zero allThreadsCount).Written heap 0 allThreadsCount where
  length array := by cases array <;> exact List.length_replicate
  unset i name _ hname := List.eq_of_mem_replicate (List.mem_of_getElem? hname)
  paired i thread name _ hname :=
    Or.inl (List.eq_of_mem_replicate (List.mem_of_getElem? hname))
  queues i name hname := List.eq_of_mem_replicate (List.mem_of_getElem? hname)

/-! The loop over the threads. -/

theorem exec_store_threads (s : Cache) (d : Draft) (i word : Nat) :
    exec (s.drafted d) (.store .allMachThreads i word) =
      s.drafted { d with threads := d.threads.set i word } := by
  unfold exec Cache.drafted Heap.store Heap.extend Heap.append
  dsimp only
  congr 2
  exact List.modifyTailIdx_add _ 0 s.heap.arrays _

theorem exec_store_pthreads (s : Cache) (d : Draft) (i word : Nat) :
    exec (s.drafted d) (.store .allPThreads i word) =
      s.drafted { d with pthreads := d.pthreads.set i word } := by
  unfold exec Cache.drafted Heap.store Heap.extend Heap.append
  dsimp only
  congr 2
  exact List.modifyTailIdx_add _ 1 s.heap.arrays _

theorem exec_strdup (s : Cache) (d : Draft) (i thread : Nat) (buffer : String) :
    exec (s.drafted d) (.strdup i thread buffer) =
      s.drafted { d with
        names := d.names.set i (s.heap.names ++ d.texts).length
        texts := d.texts ++ [some buffer]
        recorded := d.recorded ++ [(thread, buffer)] } := by
  unfold exec Cache.drafted Heap.store Heap.extend Heap.append
  dsimp only
  congr 2
  · exact List.modifyTailIdx_add _ 2 s.heap.arrays _
  · exact List.append_assoc _ _ _
  · exact List.append_assoc _ _ _

/-- The thread comes before its name, which is null until then. -/
theorem Draft.Written.setThread {d : Draft} {heap : Heap} {k allThreadsCount : Nat}
    (h : d.Written heap k allThreadsCount) (thread : Nat) :
    { d with threads := d.threads.set k thread }.Written heap k allThreadsCount where
  length array := by
    cases array with
    | allMachThreads => exact List.length_set.trans (h.length .allMachThreads)
    | allPThreads => exact h.length .allPThreads
    | allThreadNames => exact h.length .allThreadNames
    | allQueueNames => exact h.length .allQueueNames
  unset := h.unset
  paired := by
    intro i other name hother hname
    by_cases heq : k = i
    · exact Or.inl (h.unset i name heq.le hname)
    · rw [List.getElem?_set_ne heq] at hother
      exact h.paired i other name hother hname
  queues := h.queues

theorem Draft.Written.setPthread {d : Draft} {heap : Heap} {k allThreadsCount : Nat}
    (h : d.Written heap k allThreadsCount) (pthread : Nat) :
    { d with pthreads := d.pthreads.set k pthread }.Written heap k allThreadsCount where
  length array := by
    cases array with
    | allMachThreads => exact h.length .allMachThreads
    | allPThreads => exact List.length_set.trans (h.length .allPThreads)
    | allThreadNames => exact h.length .allThreadNames
    | allQueueNames => exact h.length .allQueueNames
  unset := h.unset
  paired := h.paired
  queues := h.queues

theorem Draft.Written.succ {d : Draft} {heap : Heap} {k allThreadsCount : Nat}
    (h : d.Written heap k allThreadsCount) : d.Written heap (k + 1) allThreadsCount where
  length := h.length
  unset i name hi := h.unset i name (Nat.le_of_succ_le hi)
  paired := h.paired
  queues := h.queues

theorem Draft.Written.setName {d : Draft} {heap : Heap} {k allThreadsCount : Nat}
    (h : d.Written heap k allThreadsCount) {thread : Nat} (hthread : d.threads[k]? = some thread)
    (buffer : String) :
    { d with
      names := d.names.set k (heap.names ++ d.texts).length
      texts := d.texts ++ [some buffer]
      recorded := d.recorded ++ [(thread, buffer)] }.Written heap (k + 1) allThreadsCount where
  length array := by
    cases array with
    | allMachThreads => exact h.length .allMachThreads
    | allPThreads => exact h.length .allPThreads
    | allThreadNames => exact List.length_set.trans (h.length .allThreadNames)
    | allQueueNames => exact h.length .allQueueNames
  unset := by
    intro i name hi hname
    rw [List.getElem?_set_ne (by omega)] at hname
    exact h.unset i name (Nat.le_of_succ_le hi) hname
  paired := by
    intro i other name hother hname
    by_cases heq : k = i
    · subst heq
      have hlt : k < d.names.length := by
        obtain ⟨hlt, _⟩ := List.getElem?_eq_some_iff.1 hname
        rwa [List.length_set] at hlt
      rw [List.getElem?_set_self hlt] at hname
      cases hname
      cases hthread.symm.trans hother
      refine Or.inr ⟨?_, buffer, ?_, List.mem_append_right _ (List.mem_singleton_self _)⟩
      · rw [List.length_append]
        exact Nat.le_add_right _ _
      · dsimp only
        rw [← List.append_assoc, List.getElem?_concat_length]
    · rw [List.getElem?_set_ne heq] at hname
      refine (h.paired i other name hother hname).imp_right ?_
      rintro ⟨hle, text, htext, hmem⟩
      obtain ⟨hlt, _⟩ := List.getElem?_eq_some_iff.1 htext
      refine ⟨hle, text, ?_, List.mem_append_left _ hmem⟩
      dsimp only
      rw [← List.append_assoc, List.getElem?_append_left hlt, htext]
  queues := h.queues

/-- What a prefix of the loop leads to. -/
def Recording (s : Cache) (k allThreadsCount : Nat) (t : Cache) : Prop :=
  ∃ d, t = s.drafted d ∧ d.Written s.heap k allThreadsCount

theorem leads_record {s : Cache} (hs : Idle s) {d : Draft} {k allThreadsCount : Nat}
    (hk : k < allThreadsCount) (h : d.Written s.heap k allThreadsCount) (listed : Listed) :
    Leads exec KeepsNames Safe (Recording s (k + 1) allThreadsCount) (record k listed)
      (s.drafted d) := by
  have hsafe (d : Draft) : Safe (s.drafted d) := (hs.drafted d).safe
  unfold record
  refine ⟨hsafe d, fun _ => ?_⟩
  rw [exec_store_threads]
  refine ⟨hsafe _, fun _ => ?_⟩
  rw [exec_store_pthreads]
  have hwritten := (h.setThread listed.thread).setPthread listed.pthread
  have hnone : Leads exec KeepsNames Safe (Recording s (k + 1) allThreadsCount) []
      (s.drafted { d with
        threads := d.threads.set k listed.thread
        pthreads := d.pthreads.set k listed.pthread }) :=
    ⟨hsafe _, _, rfl, hwritten.succ⟩
  cases hname : listed.name with
  | none => exact hnone
  | some buffer =>
    dsimp only
    split
    · refine ⟨hsafe _, fun _ => ?_⟩
      rw [exec_strdup]
      refine ⟨hsafe _, _, rfl, hwritten.setName ?_ buffer⟩
      have hlt : k < d.threads.length := hk.trans_eq (h.length .allMachThreads).symm
      exact List.getElem?_set_self hlt
    · exact hnone

theorem leads_recordFrom {s : Cache} (hs : Idle s) {allThreadsCount : Nat}
    (threads : List Listed) {d : Draft} {k : Nat} (hk : k + threads.length = allThreadsCount)
    (h : d.Written s.heap k allThreadsCount) :
    Leads exec KeepsNames Safe (Recording s allThreadsCount allThreadsCount)
      (recordFrom k threads) (s.drafted d) := by
  induction threads generalizing d k with
  | nil =>
    cases hk
    exact ⟨(hs.drafted d).safe, d, rfl, h⟩
  | cons listed rest ih =>
    rw [List.length_cons] at hk
    refine (leads_record hs (by omega) h listed).append ?_
    rintro t ⟨d', rfl, h'⟩
    exact ih (by omega) h'

/-! The swaps. -/

theorem toNat_toInt_le (count : Nat) : (toInt count).toNat ≤ count := by
  unfold toInt Int.bmod
  dsimp only
  split <;> omega

/-- What the local variables point to before the swaps: arrays and names that are allocated from
the addresses `base` and `names` on. -/
structure Fresh (t : Cache) (allThreadsCount base names : Nat) : Prop where
  inside : ∀ array, allThreadsCount ≤ t.heap.allocated (t.held array)
  paired : Paired t.heap (t.held .allMachThreads) (t.held .allThreadNames)
  unnamed : Unnamed t.heap (t.held .allQueueNames)
  address : ∀ array address, t.held array = some address →
    base ≤ address ∧ address < t.heap.arrays.length
  name : ∀ i name, t.heap.read (t.held .allThreadNames) i = some name →
    name = 0 ∨ names ≤ name ∧ name < t.heap.names.length

theorem Draft.Written.recorded {d : Draft} {heap : Heap} {allThreadsCount : Nat}
    (h : d.Written heap allThreadsCount allThreadsCount) {i thread name : Nat}
    (hthread : d.threads[i]? = some thread) (hname : d.names[i]? = some name) :
    (heap.extend d).Recorded thread name := by
  refine (h.paired i thread name hthread hname).imp_right ?_
  rintro ⟨_, text, htext, hmem⟩
  exact ⟨text, htext, List.mem_append_right _ hmem⟩

theorem Draft.Written.fresh {s : Cache} {d : Draft} {allThreadsCount : Nat}
    (h : d.Written s.heap allThreadsCount allThreadsCount) :
    Fresh (s.drafted d) allThreadsCount s.heap.arrays.length s.heap.names.length where
  inside array := by
    unfold Heap.allocated Cache.drafted
    dsimp only
    rw [block_extend, Option.map_some, Option.getD_some, h.length array]
  paired i thread name hthread hname :=
    h.recorded ((read_extend s.heap d .allMachThreads i).symm.trans hthread)
      ((read_extend s.heap d .allThreadNames i).symm.trans hname)
  unnamed i name hname :=
    h.queues i name ((read_extend s.heap d .allQueueNames i).symm.trans hname)
  address array address haddress := by
    cases haddress
    refine ⟨Nat.le_add_right _ _, ?_⟩
    unfold Cache.drafted Heap.extend Heap.append
    dsimp only
    rw [List.length_append]
    cases array <;> simp [Cached.index]
  name i name hname := by
    have hget : d.names[i]? = some name :=
      (read_extend s.heap d .allThreadNames i).symm.trans hname
    have hlt : i < d.threads.length := by
      obtain ⟨hlt, _⟩ := List.getElem?_eq_some_iff.1 hget
      exact hlt.trans_eq ((h.length .allThreadNames).trans (h.length .allMachThreads).symm)
    refine (h.paired i _ name (List.getElem?_eq_getElem hlt) hget).imp_right ?_
    rintro ⟨hle, text, htext, _⟩
    obtain ⟨hbound, _⟩ := List.getElem?_eq_some_iff.1 htext
    exact ⟨hle, hbound⟩

/-- The global variable after the first `k` swaps. -/
def swapped (t : Cache) (k : Nat) (array : Cached) : Option Nat :=
  if array.index < k then t.held array else t.global array

/-- The local variable after the first `k` swaps. -/
def released (t : Cache) (k : Nat) (array : Cached) : Option Nat :=
  if array.index < k then t.global array else t.held array

/-- After the first `k` swaps the names fit to the threads. -/
structure Stage (t : Cache) (count : Int) (k : Nat) (u : Cache) : Prop where
  fits : Fits t.heap count (swapped t k .allMachThreads) (swapped t k .allThreadNames)
  heap : u.heap = t.heap
  count : u.allThreadsCount = count
  global : ∀ array, u.global array = swapped t k array
  held : ∀ array, u.held array = released t k array

section Swaps

variable {t : Cache} {allThreadsCount base names : Nat} {count : Int} (hidle : Idle t)
  (hfresh : Fresh t allThreadsCount base names) (hold : count.toNat ≤ t.allThreadsCount.toNat)
  (hnew : count.toNat ≤ allThreadsCount)
include hidle hfresh hold hnew

/-- With a count that is inside the old arrays and inside the new ones, only the names can fail. -/
theorem safe_of_swapped {u : Cache} {k : Nat} (hheap : u.heap = t.heap)
    (hcount : u.allThreadsCount = count) (hglobal : ∀ array, u.global array = swapped t k array)
    (hfits : Fits t.heap count (swapped t k .allMachThreads) (swapped t k .allThreadNames)) :
    Safe u := by
  apply (safe_iff u).2
  rw [hheap, hcount, hglobal, hglobal, hglobal]
  refine ⟨fun array => ?_, hfits, ?_⟩
  · rw [hglobal, swapped]
    split
    · exact hnew.trans (hfresh.inside array)
    · exact hold.trans (hidle.inside array)
  · rw [swapped.eq_def t k .allQueueNames]
    split
    · exact hfresh.unnamed.fits _ _
    · exact hidle.unnamed.fits _ _

theorem leads_swapPointers {u : Cache} {array : Cached} (hu : Stage t count array.index u)
    (hfits : KeepsNames u (.assignGlobal array) →
      Fits t.heap count (swapped t (array.index + 1) .allMachThreads)
        (swapped t (array.index + 1) .allThreadNames)) :
    Leads exec KeepsNames Safe (Stage t count (array.index + 1)) (swapPointers array) u := by
  have hsafe : Safe u :=
    safe_of_swapped hidle hfresh hold hnew hu.heap hu.count hu.global hu.fits
  have hglobal (other : Cached) : Function.update u.global array (u.held array) other =
      swapped t (array.index + 1) other := by
    rw [hu.held]
    unfold released swapped
    cases array <;> cases other <;> simp [Cached.index, Function.update, hu.global, swapped]
  have hheld (other : Cached) : Function.update u.held array (u.global array) other =
      released t (array.index + 1) other := by
    rw [hu.global]
    unfold released swapped
    cases array <;> cases other <;> simp [Cached.index, Function.update, hu.held, released]
  refine ⟨hsafe, fun _ => ⟨?_, fun hok => ?_⟩⟩
  · exact safe_of_swapped hidle hfresh hold hnew hu.heap hu.count hu.global hu.fits
  · have hnext := hfits hok
    refine ⟨?_, fun _ => ⟨?_, hnext, hu.heap, hu.count, hglobal, hheld⟩⟩
    · exact safe_of_swapped hidle hfresh hold hnew hu.heap hu.count hglobal hnext
    · exact safe_of_swapped hidle hfresh hold hnew hu.heap hu.count hglobal hnext

/-- Only the swap of the threads asks for the condition; with the names of the new threads in
place nothing is left of the old ones. -/
theorem leads_swaps {u : Cache} (hu : Stage t count 0 u) :
    Leads exec KeepsNames Safe (Stage t count 4)
      (swapPointers .allMachThreads ++ swapPointers .allPThreads ++
        swapPointers .allThreadNames ++ swapPointers .allQueueNames) u := by
  have hswap {array : Cached} {u : Cache} := @leads_swapPointers t allThreadsCount base names count
    hidle hfresh hold hnew u array
  refine Leads.append (Leads.append (Leads.append (hswap hu fun hok => ?_) fun u₁ hu₁ =>
    hswap hu₁ fun _ => ?_) fun u₂ hu₂ => hswap hu₂ fun _ => ?_) fun u₃ hu₃ =>
    hswap hu₃ fun _ => ?_
  · have hfits : Fits u.heap u.allThreadsCount (u.held .allMachThreads)
        (u.global .allThreadNames) := hok
    rw [hu.heap, hu.count, hu.held, hu.global] at hfits
    exact hfits
  · exact hu₁.fits
  · exact hfresh.paired.fits count
  · exact hu₃.fits

end Swaps

/-! What is freed. -/

/-- What is below the addresses `base` and `names` may be freed, and nothing else changes. -/
structure Frees (base names : Nat) (heap heap' : Heap) : Prop where
  kept : ∀ pointer, (∀ address, pointer = some address → base ≤ address) →
    heap'.block pointer = heap.block pointer
  live : ∀ pointer words, heap'.block pointer = some words → heap.block pointer = some words
  arrayCount : heap'.arrays.length = heap.arrays.length
  nameCount : heap'.names.length = heap.names.length
  recorded : ∀ thread name, name = 0 ∨ names ≤ name → heap.Recorded thread name →
    heap'.Recorded thread name

theorem frees_free {base names : Nat} (heap : Heap) {pointer : Option Nat}
    (h : ∀ address, pointer = some address → address < base) :
    Frees base names heap (heap.free pointer) := by
  cases pointer with
  | none => exact ⟨fun _ _ => rfl, fun _ _ h => h, rfl, rfl, fun _ _ _ h => h⟩
  | some freed =>
    have hlt := h freed rfl
    refine ⟨?_, ?_, List.length_set, rfl, fun _ _ _ h => h⟩
    · intro pointer hkept
      cases pointer with
      | none => rfl
      | some address =>
        have hne : freed ≠ address := by
          have hle := hkept address rfl
          omega
        simp only [Heap.block, Heap.free, Option.bind_some, List.getElem?_set_ne hne]
    · intro pointer words hblock
      cases pointer with
      | none => exact hblock
      | some address =>
        simp only [Heap.block, Heap.free, Option.bind_some, List.getElem?_set] at hblock ⊢
        split at hblock
        · split at hblock <;> cases hblock
        · exact hblock

theorem frees_freeName {base names : Nat} (heap : Heap) {freed : Nat}
    (h : freed = 0 ∨ freed < names) : Frees base names heap (heap.freeName freed) := by
  unfold Heap.freeName
  split
  · exact ⟨fun _ _ => rfl, fun _ _ h => h, rfl, rfl, fun _ _ _ h => h⟩
  · rename_i hne
    refine ⟨fun _ _ => rfl, fun _ _ h => h, rfl, List.length_set, ?_⟩
    intro thread name hname hrecorded
    obtain hnull | ⟨text, htext, hmem⟩ := hrecorded
    · exact Or.inl hnull
    · by_cases hnull : name = 0
      · exact Or.inl hnull
      · refine Or.inr ⟨text, ?_, hmem⟩
        have hother : freed ≠ name := by omega
        exact (List.getElem?_set_ne hother).trans htext

/-- The update has published its arrays, and its local variables have the old ones. -/
structure Retiring (base names : Nat) (u : Cache) : Prop extends Idle u where
  held : ∀ array address, u.held array = some address → address < base
  heldName : ∀ i name, u.heap.read (u.held .allThreadNames) i = some name →
    name = 0 ∨ name < names
  heldQueue : Unnamed u.heap (u.held .allQueueNames)
  published : ∀ array address, u.global array = some address → base ≤ address
  publishedName : ∀ i name, u.heap.read (u.global .allThreadNames) i = some name →
    name = 0 ∨ names ≤ name

theorem Retiring.frees {base names : Nat} {u : Cache} (h : Retiring base names u) {heap : Heap}
    (hfrees : Frees base names u.heap heap) : Retiring base names { u with heap := heap } := by
  have hread (array : Cached) (i : Nat) :
      heap.read (u.global array) i = u.heap.read (u.global array) i := by
    rw [Heap.read, hfrees.kept _ (h.published array), Heap.read]
  have hlive (pointer : Option Nat) (i word : Nat) (hword : heap.read pointer i = some word) :
      u.heap.read pointer i = some word := by
    obtain ⟨words, hblock, hget⟩ := Option.bind_eq_some_iff.1 hword
    exact Option.bind_eq_some_iff.2 ⟨words, hfrees.live pointer words hblock, hget⟩
  constructor
  case toIdle =>
    constructor
    case inside =>
      intro array
      dsimp only
      rw [Heap.allocated, hfrees.kept _ (h.published array)]
      exact h.inside array
    case paired =>
      intro i thread name hthread hname
      rw [hread] at hthread hname
      exact hfrees.recorded thread name (h.publishedName i name hname)
        (h.paired i thread name hthread hname)
    case unnamed =>
      intro i name hname
      rw [hread] at hname
      exact h.unnamed i name hname
    case address =>
      intro array address haddress
      exact (h.address array address haddress).trans_eq hfrees.arrayCount.symm
    case name =>
      intro i name hname
      rw [hread] at hname
      exact (h.name i name hname).imp_right fun hlt => hlt.trans_eq hfrees.nameCount.symm
  case held => exact h.held
  case heldName => exact fun i name hname => h.heldName i name (hlive _ i name hname)
  case heldQueue => exact fun i name hname => h.heldQueue i name (hlive _ i name hname)
  case published => exact h.published
  case publishedName =>
    intro i name hname
    rw [hread] at hname
    exact h.publishedName i name hname

theorem Retiring.free {base names : Nat} {u : Cache} (h : Retiring base names u) (array : Cached) :
    Retiring base names (exec u (.free array)) :=
  h.frees (frees_free u.heap (h.held array))

theorem Retiring.freeName {base names : Nat} {u : Cache} (h : Retiring base names u)
    {array : Cached} (harray : array = .allThreadNames ∨ array = .allQueueNames) (i : Nat) :
    Retiring base names (exec u (.freeName array i)) := by
  unfold exec
  dsimp only
  split
  · exact h
  · rename_i name hname
    apply h.frees
    apply frees_freeName
    obtain rfl | rfl := harray
    · exact h.heldName i name hname
    · exact Or.inl (h.heldQueue i name hname)

theorem leads_freeNames {base names : Nat} {u : Cache} (h : Retiring base names u)
    {array : Cached} (harray : array = .allThreadNames ∨ array = .allQueueNames)
    (oldThreadsCount : Int) :
    Leads exec KeepsNames Safe (Retiring base names) (freeNames array oldThreadsCount) u := by
  refine Leads.of_invariant (fun u hu => hu.toIdle.safe) ?_ h
  intro statement hmem u hu
  obtain hname | hfree := List.mem_append.1 hmem
  · obtain ⟨i, _, rfl⟩ := List.mem_map.1 hname
    exact hu.freeName harray i
  · cases List.mem_singleton.1 hfree
    exact hu.free array

/-! The whole update. -/

/-- The statements in their groups. -/
theorem updateThreadList_some (s : Cache) (threads : List Listed) :
    updateThreadList s (some threads) =
      [.calloc .allMachThreads threads.length, .calloc .allPThreads threads.length,
        .calloc .allThreadNames threads.length, .calloc .allQueueNames threads.length] ++
      (recordFrom 0 threads ++ (.lowerCount threads.length ::
      (swapPointers .allMachThreads ++ swapPointers .allPThreads ++
        swapPointers .allThreadNames ++ swapPointers .allQueueNames ++
      (.setCount threads.length :: .free .allMachThreads :: .free .allPThreads ::
      (freeNames .allThreadNames s.allThreadsCount ++
        freeNames .allQueueNames s.allThreadsCount))))) := by
  simp [updateThreadList]

/-- The arrays that are swapped in are complete with the new count. -/
theorem Stage.retiring {s t u : Cache} {allThreadsCount : Nat} {count : Int} (hs : Idle s)
    (ht : Recording s allThreadsCount allThreadsCount t) (hu : Stage t count 4 u) :
    Retiring s.heap.arrays.length s.heap.names.length
      (exec u (.setCount allThreadsCount)) := by
  obtain ⟨d, rfl, hwritten⟩ := ht
  have hidle := hs.drafted d
  have hfresh := hwritten.fresh
  have hglobal : u.global = (s.drafted d).held := by
    funext array
    rw [hu.global]
    cases array <;> rfl
  have hheld : u.held = s.global := by
    funext array
    rw [hu.held]
    cases array <;> rfl
  have hbound := toNat_toInt_le allThreadsCount
  have hexec : exec u (.setCount allThreadsCount) =
      { u with allThreadsCount := toInt allThreadsCount } := rfl
  rw [hexec]
  generalize toInt allThreadsCount = newCount at hbound
  constructor
  case toIdle =>
    constructor
    case inside =>
      intro array
      dsimp only
      rw [hu.heap, hglobal]
      exact hbound.trans (hfresh.inside array)
    case paired =>
      dsimp only
      rw [hu.heap, hglobal]
      exact hfresh.paired
    case unnamed =>
      dsimp only
      rw [hu.heap, hglobal]
      exact hfresh.unnamed
    case address =>
      dsimp only
      rw [hu.heap, hglobal]
      exact fun array address haddress => (hfresh.address array address haddress).2
    case name =>
      dsimp only
      rw [hu.heap, hglobal]
      exact fun i name hname => (hfresh.name i name hname).imp_right And.right
  case held =>
    dsimp only
    rw [hheld]
    exact hs.address
  case heldName =>
    intro i name hname
    dsimp only at hname
    rw [hu.heap, hheld] at hname
    exact hs.name i name
      ((read_append s.heap _ _ _ (hs.address .allThreadNames) i).symm.trans hname)
  case heldQueue =>
    dsimp only
    rw [hu.heap, hheld]
    exact hidle.unnamed
  case published =>
    dsimp only
    rw [hglobal]
    exact fun array address haddress => (hfresh.address array address haddress).1
  case publishedName =>
    dsimp only
    rw [hu.heap, hglobal]
    exact fun i name hname => (hfresh.name i name hname).imp_right And.left

/-- The lower count is inside the old arrays and inside the new ones. -/
theorem exec_lowerCount (s : Cache) (allThreadsCount : Nat) :
    ∃ count, exec s (.lowerCount allThreadsCount) = { s with allThreadsCount := count } ∧
      count.toNat ≤ s.allThreadsCount.toNat ∧ count.toNat ≤ allThreadsCount := by
  have hbound := toNat_toInt_le allThreadsCount
  refine ⟨_, rfl, ?_, ?_⟩ <;> split <;> omega

theorem leads_updateThreadList (s : Cache) (request : Option (List Listed)) (hs : Idle s) :
    Leads exec KeepsNames Safe Idle (updateThreadList s request) s := by
  cases request with
  | none => exact ⟨hs.safe, hs⟩
  | some threads =>
    rw [updateThreadList_some]
    refine (leads_calloc hs threads.length).append ?_
    rintro _ rfl
    refine (leads_recordFrom hs threads (Nat.zero_add _) (written_zero s.heap _)).append ?_
    intro t ht
    have hidle : Idle t := by
      obtain ⟨d, rfl, _⟩ := ht
      exact hs.drafted d
    have hfresh : Fresh t threads.length s.heap.arrays.length s.heap.names.length := by
      obtain ⟨d, rfl, hwritten⟩ := ht
      exact hwritten.fresh
    refine ⟨hidle.safe, fun _ => ?_⟩
    obtain ⟨count, hexec, hold, hnew⟩ := exec_lowerCount t threads.length
    rw [hexec]
    have hstage : Stage t count 0 { t with allThreadsCount := count } :=
      ⟨hidle.paired.fits count, rfl, rfl, fun _ => rfl, fun _ => rfl⟩
    refine (leads_swaps hidle hfresh hold hnew hstage).append ?_
    intro u hu
    have hretiring := hu.retiring hs ht
    have hmach := hretiring.free .allMachThreads
    have hpthread := hmach.free .allPThreads
    refine ⟨safe_of_swapped hidle hfresh hold hnew hu.heap hu.count hu.global hu.fits, fun _ => ?_⟩
    refine ⟨hretiring.toIdle.safe, fun _ => ⟨hmach.toIdle.safe, fun _ => ?_⟩⟩
    refine (leads_freeNames hpthread (Or.inl rfl) _).append fun v hv => ?_
    exact (leads_freeNames hv (Or.inr rfl) _).mono fun _ h => h.toIdle

/-- The readers are safe at every boundary of exactly the runs in which the new threads fit to the
old names whenever they are put in place. -/
theorem always_safe_iff (inputs : List (Input (Option (List Listed)))) :
    Always (step exec updateThreadList) (fun p => Safe p.state) ⟨start, []⟩ inputs ↔
      Allowed (step exec updateThreadList) (Meets KeepsNames) ⟨start, []⟩ inputs :=
  always_iff_meets leads_updateThreadList not_safe_of_not_keepsNames idle_start idle_start.safe
    inputs

/-- When the first of two threads is gone, the second one has its index, and for a moment its
name. -/
theorem name_of_other_thread :
    ¬ Always (step exec updateThreadList) (fun p => Safe p.state) ⟨start, []⟩
      ([.start (some [⟨1, 10, some "a"⟩, ⟨2, 11, some "b"⟩])] ++ List.replicate 28 .tick ++
        [.start (some [⟨2, 11, some "b"⟩])] ++ List.replicate 10 .tick) := by
  intro always
  have hrun : (Library.Machine.exec (step exec updateThreadList) ⟨start, []⟩
      ([.start (some [⟨1, 10, some "a"⟩, ⟨2, 11, some "b"⟩])] ++ List.replicate 28 .tick ++
        [.start (some [⟨2, 11, some "b"⟩])] ++ List.replicate 10 .tick)).map
      (fun p => (p.state.getThreadName 2, p.state.heap.names, p.state.heap.recorded)) =
      some (some 1, [none, some "a", some "b", some "b"], [(1, "a"), (2, "b"), (2, "b")]) := by
    decide +kernel
  obtain ⟨p, hexec, hread⟩ := Option.map_eq_some_iff.1 hrun
  simp only [Prod.mk.injEq] at hread
  obtain ⟨hfound, hnames, hall⟩ := hread
  obtain ⟨name, hname, hrecorded⟩ := (always.exec hexec).threadName 2
  rw [hfound] at hname
  cases hname
  obtain hnull | ⟨text, htext, hmem⟩ := hrecorded
  · cases hnull
  · rw [hnames] at htext
    rw [hall] at hmem
    cases htext
    simp at hmem

end SentryCocoa.CachedData
