import SentryCocoa.CachedData

/-! The reads of the cached names in any run. A name can be that of another thread, but no read is
outside an array and no name is freed. -/
namespace SentryCocoa.CachedData

open Library.Machine Library.Preemption

/-- The null pointer, or a name that is not freed. -/
def Heap.Live (heap : Heap) (name : Nat) : Prop :=
  name = 0 ∨ ∃ text, heap.names[name]? = some (some text)

theorem Heap.Recorded.live {heap : Heap} {thread name : Nat} (h : heap.Recorded thread name) :
    heap.Live name :=
  h.imp_right fun ⟨text, htext, _⟩ => ⟨text, htext⟩

/-- What a reader needs that does not look at what it gets. -/
structure Readable (s : Cache) : Prop where
  inside : ∀ array, s.allThreadsCount.toNat ≤ s.heap.allocated (s.global array)
  threadName : ∀ thread, ∃ name, s.getThreadName thread = some name ∧ s.heap.Live name
  queueName : ∀ thread, ∃ name, s.getQueueName thread = some name ∧ s.heap.Live name

theorem Safe.readable {s : Cache} (h : Safe s) : Readable s where
  inside := h.inside
  threadName thread := (h.threadName thread).imp fun _ hname => hname.imp_right Heap.Recorded.live
  queueName thread := (h.queueName thread).imp fun _ hname => hname.imp_right Heap.Recorded.live

theorem findName_of_inside (s : Cache) (array : Cached) (thread : Nat) {indices : List Nat}
    (hthreads : ∀ i ∈ indices, i < s.heap.allocated (s.global .allMachThreads))
    (hnames : ∀ i ∈ indices, i < s.heap.allocated (s.global array)) :
    ∃ name, s.findName array thread indices = some name ∧
      (name = 0 ∨ ∃ i ∈ indices, s.heap.read (s.global array) i = some name) := by
  induction indices with
  | nil => exact ⟨0, rfl, Or.inl rfl⟩
  | cons i rest ih =>
    obtain ⟨found, hfound⟩ := Heap.read_isSome (hthreads i List.mem_cons_self)
    rw [Cache.findName, hfound, Option.bind_some]
    split
    · obtain ⟨name, hname⟩ := Heap.read_isSome (hnames i List.mem_cons_self)
      exact ⟨name, hname, Or.inr ⟨i, List.mem_cons_self, hname⟩⟩
    · obtain ⟨name, hname, hread⟩ := ih (fun j hj => hthreads j (List.mem_cons_of_mem i hj))
        fun j hj => hnames j (List.mem_cons_of_mem i hj)
      refine ⟨name, hname, hread.imp_right ?_⟩
      rintro ⟨j, hj, hj'⟩
      exact ⟨j, List.mem_cons_of_mem i hj, hj'⟩

/-- The names below the count are not freed. -/
def Named (heap : Heap) (count : Int) (names : Option Nat) : Prop :=
  ∀ i < count.toNat, ∀ name, heap.read names i = some name → heap.Live name

theorem getName_live {s : Cache}
    (inside : ∀ array, s.allThreadsCount.toNat ≤ s.heap.allocated (s.global array))
    {array : Cached} (hnamed : Named s.heap s.allThreadsCount (s.global array)) (thread : Nat) :
    ∃ name, s.getName array thread = some name ∧ s.heap.Live name := by
  rw [Cache.getName]
  split
  · exact ⟨0, rfl, Or.inl rfl⟩
  · obtain ⟨name, hname, hread⟩ := @findName_of_inside s array thread
      (List.range s.allThreadsCount.toNat)
      (fun i hi => (List.mem_range.1 hi).trans_le (inside .allMachThreads))
      fun i hi => (List.mem_range.1 hi).trans_le (inside array)
    refine ⟨name, hname, ?_⟩
    obtain hnull | ⟨i, hi, hread⟩ := hread
    · exact Or.inl hnull
    · exact hnamed i (List.mem_range.1 hi) name hread

theorem readable_of_named {s : Cache}
    (inside : ∀ array, s.allThreadsCount.toNat ≤ s.heap.allocated (s.global array))
    (hthread : Named s.heap s.allThreadsCount (s.global .allThreadNames))
    (hqueue : Named s.heap s.allThreadsCount (s.global .allQueueNames)) : Readable s where
  inside := inside
  threadName := getName_live inside hthread
  queueName := getName_live inside hqueue

theorem Unnamed.named {heap : Heap} {names : Option Nat} (h : Unnamed heap names) (count : Int) :
    Named heap count names :=
  fun i _ name hname => Or.inl (h i name hname)

/-- Names that fit to threads are not freed. -/
theorem Paired.named {heap : Heap} {threads names : Option Nat} (h : Paired heap threads names)
    {count : Int} (hthreads : count.toNat ≤ heap.allocated threads) : Named heap count names := by
  intro i hi name hname
  obtain ⟨thread, hthread⟩ := Heap.read_isSome (hi.trans_le hthreads)
  exact (h i thread name hthread hname).live

/-- `Leads` without a condition. -/
abbrev LeadsAlways (post : Cache → Prop) (statements : List Statement) (s : Cache) : Prop :=
  Leads exec (fun _ _ => True) Readable post statements s

/-! The swaps. -/

/-- After the first `k` swaps, whether the names fit or not. -/
structure Swapped (t : Cache) (count : Int) (k : Nat) (u : Cache) : Prop where
  heap : u.heap = t.heap
  count : u.allThreadsCount = count
  global : ∀ array, u.global array = swapped t k array
  held : ∀ array, u.held array = released t k array

section Swaps

variable {t : Cache} {allThreadsCount base names : Nat} {count : Int} (hidle : Idle t)
  (hfresh : Fresh t allThreadsCount base names) (hold : count.toNat ≤ t.allThreadsCount.toNat)
  (hnew : count.toNat ≤ allThreadsCount)
include hidle hfresh hold hnew

theorem readable_of_swapped {u : Cache} {k : Nat} (hheap : u.heap = t.heap)
    (hcount : u.allThreadsCount = count)
    (hglobal : ∀ array, u.global array = swapped t k array) : Readable u := by
  have hinside (array : Cached) : u.allThreadsCount.toNat ≤ u.heap.allocated (u.global array) := by
    rw [hheap, hcount, hglobal, swapped]
    split
    · exact hnew.trans (hfresh.inside array)
    · exact hold.trans (hidle.inside array)
  refine readable_of_named hinside ?_ ?_
  · rw [hheap, hcount, hglobal, swapped]
    split
    · exact hfresh.paired.named (hnew.trans (hfresh.inside .allMachThreads))
    · exact hidle.paired.named (hold.trans (hidle.inside .allMachThreads))
  · rw [hheap, hglobal, swapped]
    split
    · exact hfresh.unnamed.named _
    · exact hidle.unnamed.named _

theorem leadsAlways_swapPointers {u : Cache} {array : Cached}
    (hu : Swapped t count array.index u) :
    LeadsAlways (Swapped t count (array.index + 1)) (swapPointers array) u := by
  have hglobal (other : Cached) : Function.update u.global array (u.held array) other =
      swapped t (array.index + 1) other := by
    rw [hu.held]
    unfold released swapped
    cases array <;> cases other <;> simp [Cached.index, Function.update, hu.global, swapped]
  have hheld (other : Cached) : Function.update u.held array (u.global array) other =
      released t (array.index + 1) other := by
    rw [hu.global]
    unfold released swapped
    cases array <;> cases other <;> simp [Cached.index, Function.update, hu.held, released]
  have hbefore : Readable u := readable_of_swapped hidle hfresh hold hnew hu.heap hu.count hu.global
  refine ⟨hbefore, fun _ => ⟨?_, fun _ => ⟨?_, fun _ => ⟨?_, hu.heap, hu.count, hglobal, hheld⟩⟩⟩⟩
  · exact readable_of_swapped hidle hfresh hold hnew hu.heap hu.count hu.global
  · exact readable_of_swapped hidle hfresh hold hnew hu.heap hu.count hglobal
  · exact readable_of_swapped hidle hfresh hold hnew hu.heap hu.count hglobal

theorem leadsAlways_swaps {u : Cache} (hu : Swapped t count 0 u) :
    LeadsAlways (Swapped t count 4)
      (swapPointers .allMachThreads ++ swapPointers .allPThreads ++
        swapPointers .allThreadNames ++ swapPointers .allQueueNames) u := by
  have hswap {array : Cached} {u : Cache} := @leadsAlways_swapPointers t allThreadsCount base names
    count hidle hfresh hold hnew u array
  exact Leads.append (Leads.append (Leads.append (hswap hu) fun u₁ hu₁ => hswap hu₁)
    fun u₂ hu₂ => hswap hu₂) fun u₃ hu₃ => hswap hu₃

end Swaps

/-! The whole update. -/

/-- The statements that are not the first swap meet the condition anyway. -/
theorem leadsAlways_of_leads {post : Cache → Prop} {statements : List Statement} {s : Cache}
    (hstatements : ∀ statement ∈ statements, statement ≠ .assignGlobal .allMachThreads)
    (h : Leads exec KeepsNames Safe post statements s) : LeadsAlways post statements s := by
  refine h.imp (fun _ ht => ht.readable) fun statement hstatement t _ => ?_
  unfold KeepsNames
  split
  · exact absurd rfl (hstatements _ hstatement)
  · trivial

theorem recordFrom_ne {threads : List Listed} {k : Nat} :
    ∀ statement ∈ recordFrom k threads, statement ≠ .assignGlobal .allMachThreads := by
  induction threads generalizing k with
  | nil => exact fun _ h => absurd h List.not_mem_nil
  | cons listed rest ih =>
    intro statement hstatement
    obtain hrecord | hrest := List.mem_append.1 hstatement
    · obtain hstore | hname := List.mem_append.1 hrecord
      · simp only [List.mem_cons, List.not_mem_nil, or_false] at hstore
        obtain rfl | rfl := hstore
        · intro heq
          cases heq
        · intro heq
          cases heq
      · split at hname
        · cases hname
        · split at hname
          · cases List.mem_singleton.1 hname
            intro heq
            cases heq
          · cases hname
    · exact ih statement hrest

theorem freeNames_ne {array : Cached} {count : Int} :
    ∀ statement ∈ freeNames array count, statement ≠ .assignGlobal .allMachThreads := by
  intro statement hstatement
  obtain hname | hfree := List.mem_append.1 hstatement
  · obtain ⟨i, _, rfl⟩ := List.mem_map.1 hname
    intro heq
    cases heq
  · cases List.mem_singleton.1 hfree
    intro heq
    cases heq

theorem leadsAlways_updateThreadList (s : Cache) (request : Option (List Listed)) (hs : Idle s) :
    LeadsAlways Idle (updateThreadList s request) s := by
  cases request with
  | none => exact ⟨hs.safe.readable, hs⟩
  | some threads =>
    rw [updateThreadList_some]
    refine (leadsAlways_of_leads ?_ (leads_calloc hs threads.length)).append ?_
    · simp
    rintro _ rfl
    refine (leadsAlways_of_leads recordFrom_ne
      (leads_recordFrom hs threads (Nat.zero_add _) (written_zero s.heap _))).append ?_
    intro t ht
    have hidle : Idle t := by
      obtain ⟨d, rfl, _⟩ := ht
      exact hs.drafted d
    have hfresh : Fresh t threads.length s.heap.arrays.length s.heap.names.length := by
      obtain ⟨d, rfl, hwritten⟩ := ht
      exact hwritten.fresh
    refine ⟨hidle.safe.readable, fun _ => ?_⟩
    obtain ⟨count, hexec, hold, hnew⟩ := exec_lowerCount t threads.length
    rw [hexec]
    have hswapped : Swapped t count 0 { t with allThreadsCount := count } :=
      ⟨rfl, rfl, fun _ => rfl, fun _ => rfl⟩
    refine (leadsAlways_swaps hidle hfresh hold hnew hswapped).append ?_
    intro u hu
    have hstage : Stage t count 4 u :=
      ⟨hfresh.paired.fits count, hu.heap, hu.count, hu.global, hu.held⟩
    have hretiring := hstage.retiring hs ht
    have hmach := hretiring.free .allMachThreads
    have hpthread := hmach.free .allPThreads
    refine ⟨readable_of_swapped hidle hfresh hold hnew hu.heap hu.count hu.global, fun _ => ?_⟩
    refine ⟨hretiring.toIdle.safe.readable, fun _ => ⟨hmach.toIdle.safe.readable, fun _ => ?_⟩⟩
    refine (leadsAlways_of_leads freeNames_ne (leads_freeNames hpthread (Or.inl rfl) _)).append
      fun v hv => ?_
    exact (leadsAlways_of_leads freeNames_ne (leads_freeNames hv (Or.inr rfl) _)).mono
      fun _ h => h.toIdle

/-- Wherever the updates are stopped, and whatever threads there were, the readers stay inside the
arrays and return null or a name that is not freed. -/
theorem always_readable (inputs : List (Input (Option (List Listed)))) :
    Always (step exec updateThreadList) (fun p => Readable p.state) ⟨start, []⟩ inputs := by
  refine (always_iff_meets leadsAlways_updateThreadList (fun _ _ h => absurd trivial h) idle_start
    idle_start.safe.readable inputs).2 ?_
  refine Allowed.of_forall fun input _ p => ?_
  cases input with
  | start request => trivial
  | tick => exact fun _ _ => trivial

end SentryCocoa.CachedData
