import Mathlib.Order.Bounds.Basic

/-! Copies of memory that may not be readable, for a crash handler that must not crash. -/
namespace SentryCocoa.CrashMemory

structure Memory where
  readable : Nat → Bool
  byte : Nat → UInt8

def Memory.ReadableRange (memory : Memory) (address count : Nat) : Prop :=
  ∀ i < count, memory.readable (address + i) = true

instance (memory : Memory) (address count : Nat) :
    Decidable (memory.ReadableRange address count) :=
  inferInstanceAs (Decidable (∀ i < count, _))

/-- What `dst` points to. -/
abbrev Buffer := Nat → UInt8

/-- `copySafely`, with the destination as a place in a buffer. It copies everything that it is
asked for exactly when it can read all of it; whatever it does otherwise stays in the range. -/
structure CopySafely (memory : Memory) where
  call : (pSrc : Nat) → (dst : Buffer) → (pDst byteCount : Nat) → Int × Buffer
  result : ∀ pSrc dst pDst byteCount,
    (call pSrc dst pDst byteCount).1 = byteCount ↔ memory.ReadableRange pSrc byteCount
  copied : ∀ pSrc dst pDst byteCount, memory.ReadableRange pSrc byteCount →
    ∀ i < byteCount, (call pSrc dst pDst byteCount).2 (pDst + i) = memory.byte (pSrc + i)
  frame : ∀ pSrc dst pDst byteCount i, i < pDst ∨ pDst + byteCount ≤ i →
    (call pSrc dst pDst byteCount).2 i = dst i

/-- Copies all or nothing. -/
def CopySafely.allOrNothing (memory : Memory) : CopySafely memory where
  call pSrc dst pDst byteCount :=
    if memory.ReadableRange pSrc byteCount then
      (byteCount, fun i =>
        if pDst ≤ i ∧ i < pDst + byteCount then memory.byte (pSrc + (i - pDst)) else dst i)
    else (0, dst)
  result := by
    intro pSrc dst pDst byteCount
    by_cases hread : memory.ReadableRange pSrc byteCount
    · simp [hread]
    · have hsome : byteCount ≠ 0 := by
        intro hzero
        exact hread fun i hi => absurd (hzero ▸ hi) (Nat.not_lt_zero i)
      simp only [hread, if_false, iff_false]
      omega
  copied := by
    intro pSrc dst pDst byteCount hread i hi
    simp [hread, hi]
  frame := by
    intro pSrc dst pDst byteCount i hi
    by_cases hread : memory.ReadableRange pSrc byteCount
    · simp only [hread, if_true, ite_eq_right_iff, and_imp]
      omega
    · simp [hread]

/-- The variables of the loop of `copyMaxPossible`. -/
structure Loop where
  pSrc : Nat
  pSrcMax : Nat
  pSrcEnd : Nat
  pDst : Nat
  bytesCopied : Nat
  dst : Buffer
  src_le_end : pSrc ≤ pSrcEnd
  end_le_max : pSrcEnd ≤ pSrcMax

namespace Loop

def copyLength (loop : Loop) : Nat := loop.pSrcEnd - loop.pSrc

theorem src_add_copyLength (loop : Loop) : loop.pSrc + loop.copyLength = loop.pSrcEnd :=
  Nat.add_sub_of_le loop.src_le_end

/-- Everything was copied: on with half of what is left. -/
def advance (loop : Loop) (dst : Buffer) : Loop where
  pSrc := loop.pSrc + loop.copyLength
  pSrcMax := loop.pSrcMax
  pSrcEnd := loop.pSrc + loop.copyLength +
    (loop.pSrcMax - (loop.pSrc + loop.copyLength)) / 2
  pDst := loop.pDst + loop.copyLength
  bytesCopied := loop.bytesCopied + loop.copyLength
  dst := dst
  src_le_end := Nat.le_add_right _ _
  end_le_max := by
    have hend := loop.src_add_copyLength
    have hmax := loop.end_le_max
    omega

/-- Not everything was copied: half of it is tried. -/
def shrink (loop : Loop) (dst : Buffer) : Loop where
  pSrc := loop.pSrc
  pSrcMax := loop.pSrcEnd
  pSrcEnd := loop.pSrc + loop.copyLength / 2
  pDst := loop.pDst
  bytesCopied := loop.bytesCopied
  dst := dst
  src_le_end := Nat.le_add_right _ _
  end_le_max := by
    have hend := loop.src_add_copyLength
    omega

end Loop

variable {memory : Memory} (copySafely : CopySafely memory)

def copyLoop (loop : Loop) : Nat × Buffer :=
  if loop.copyLength ≤ 0 then (loop.bytesCopied, loop.dst)
  else
    let attempt := copySafely.call loop.pSrc loop.dst loop.pDst loop.copyLength
    if attempt.1 = loop.copyLength then copyLoop (loop.advance attempt.2)
    else if loop.copyLength ≤ 1 then (loop.bytesCopied, attempt.2)
    else copyLoop (loop.shrink attempt.2)
termination_by (loop.pSrcMax - loop.pSrc, loop.copyLength)
decreasing_by
  all_goals
    have hend := loop.src_add_copyLength
    have hmax := loop.end_le_max
    simp only [Loop.advance, Loop.shrink, Loop.copyLength, Prod.lex_def] at *
    omega

def Loop.start (src byteCount : Nat) (dst : Buffer) : Loop where
  pSrc := src
  pSrcMax := src + byteCount
  pSrcEnd := src + byteCount
  pDst := 0
  bytesCopied := 0
  dst := dst
  src_le_end := Nat.le_add_right _ _
  end_le_max := Nat.le_refl _

def copyMaxPossible (src : Nat) (dst : Buffer) (byteCount : Nat) : Nat × Buffer :=
  let first := copySafely.call src dst 0 1
  if first.1 ≠ 1 then (0, first.2)
  else if byteCount ≤ 1 then (byteCount, first.2)
  else copyLoop copySafely (Loop.start src byteCount first.2)

/-! ## The longest prefix that can be read -/

/-- How much of a range can be read from its start. -/
def Memory.LongestPrefix (memory : Memory) (src byteCount count : Nat) : Prop :=
  IsGreatest {n | n ≤ byteCount ∧ memory.ReadableRange src n} count

variable {src byteCount count : Nat}

theorem Memory.ReadableRange.append {n : Nat} (h : memory.ReadableRange src n)
    (hnext : memory.ReadableRange (src + n) count) : memory.ReadableRange src (n + count) := by
  intro i hi
  by_cases hlt : i < n
  · exact h i hlt
  · have hread := hnext (i - n) (by omega)
    rwa [show src + n + (i - n) = src + i by omega] at hread

theorem Memory.readableRange_one :
    memory.ReadableRange src 1 ↔ memory.readable src = true := by
  constructor
  · intro h
    exact h 0 Nat.zero_lt_one
  · intro h i hi
    rwa [show src + i = src by omega]

theorem Memory.longestPrefix_all (h : memory.ReadableRange src byteCount) :
    memory.LongestPrefix src byteCount byteCount :=
  ⟨⟨Nat.le_refl _, h⟩, fun _ hn => hn.1⟩

/-- A prefix that ends before a byte that cannot be read is the longest one. -/
theorem Memory.longestPrefix_of_not_readable (hle : count ≤ byteCount)
    (h : memory.ReadableRange src count) (hend : memory.readable (src + count) = false) :
    memory.LongestPrefix src byteCount count := by
  refine ⟨⟨hle, h⟩, fun n hn => ?_⟩
  by_contra hlt
  have hread := hn.2 count (Nat.not_le.mp hlt)
  rw [hend] at hread
  cases hread

/-- What a call leaves behind: the longest prefix that can be read, copied, and nothing behind
the range. A first byte is always tried. -/
structure Copied (memory : Memory) (src byteCount : Nat) (dst : Buffer)
    (result : Nat × Buffer) : Prop where
  longest : memory.LongestPrefix src byteCount result.1
  copied : ∀ i < result.1, result.2 i = memory.byte (src + i)
  frame : ∀ i, max 1 byteCount ≤ i → result.2 i = dst i

/-- What was copied can be read. What is left was not tried yet, or it cannot be read to its end
and half of it is tried next. -/
structure Loop.Inv (memory : Memory) (src byteCount : Nat) (dst : Buffer) (loop : Loop) :
    Prop where
  src_eq : loop.pSrc = src + loop.bytesCopied
  dst_eq : loop.pDst = loop.bytesCopied
  max_le : loop.pSrcMax ≤ src + byteCount
  readable : memory.ReadableRange src loop.bytesCopied
  copied : ∀ i < loop.bytesCopied, loop.dst i = memory.byte (src + i)
  frame : ∀ i, byteCount ≤ i → loop.dst i = dst i
  rest : (loop.pSrcEnd = loop.pSrcMax ∧ loop.pSrcMax = src + byteCount) ∨
    (¬memory.ReadableRange loop.pSrc (loop.pSrcMax - loop.pSrc) ∧
      loop.pSrcEnd = loop.pSrc + (loop.pSrcMax - loop.pSrc) / 2)

namespace Loop.Inv

variable {dst : Buffer} {loop : Loop} (h : loop.Inv memory src byteCount dst)
include h

theorem end_le : loop.bytesCopied + loop.copyLength ≤ byteCount := by
  have hsrc := h.src_eq
  have hmax := h.max_le
  have hend := loop.src_add_copyLength
  have hle := loop.end_le_max
  omega

theorem advance
    (hread : memory.ReadableRange loop.pSrc loop.copyLength) :
    (loop.advance (copySafely.call loop.pSrc loop.dst loop.pDst loop.copyLength).2).Inv memory
      src byteCount dst where
  src_eq := by
    have hsrc := h.src_eq
    simp only [Loop.advance]
    omega
  dst_eq := by
    have hdst := h.dst_eq
    simp only [Loop.advance]
    omega
  max_le := h.max_le
  readable := h.readable.append (h.src_eq ▸ hread)
  copied := by
    intro i hi
    change i < loop.bytesCopied + loop.copyLength at hi
    change (copySafely.call _ _ _ _).2 i = _
    by_cases hlt : i < loop.bytesCopied
    · rw [copySafely.frame _ _ _ _ _ (Or.inl (h.dst_eq ▸ hlt))]
      exact h.copied i hlt
    · have hdst := h.dst_eq
      have hsrc := h.src_eq
      have hcopied := copySafely.copied _ loop.dst loop.pDst _ hread (i - loop.bytesCopied)
        (by omega)
      rwa [show loop.pDst + (i - loop.bytesCopied) = i by omega,
        show loop.pSrc + (i - loop.bytesCopied) = src + i by omega] at hcopied
  frame := by
    intro i hi
    have hend := h.end_le
    have hdst := h.dst_eq
    exact (copySafely.frame _ _ _ _ _ (Or.inr (by omega))).trans (h.frame i hi)
  rest := by
    have hend := loop.src_add_copyLength
    have hle := loop.end_le_max
    rcases h.rest with ⟨hmax, hall⟩ | ⟨hunread, _⟩
    · refine Or.inl ⟨?_, hall⟩
      simp only [Loop.advance]
      omega
    · refine Or.inr ⟨fun hrest => hunread ?_, rfl⟩
      have happend := hread.append hrest
      simp only [Loop.advance] at happend
      rwa [show loop.copyLength + (loop.pSrcMax - (loop.pSrc + loop.copyLength)) =
        loop.pSrcMax - loop.pSrc by omega] at happend

theorem shrink (hread : ¬memory.ReadableRange loop.pSrc loop.copyLength) :
    (loop.shrink (copySafely.call loop.pSrc loop.dst loop.pDst loop.copyLength).2).Inv memory
      src byteCount dst where
  src_eq := h.src_eq
  dst_eq := h.dst_eq
  max_le := Nat.le_trans loop.end_le_max h.max_le
  readable := h.readable
  copied := by
    intro i hi
    exact (copySafely.frame _ _ _ _ _ (Or.inl (h.dst_eq ▸ hi))).trans (h.copied i hi)
  frame := by
    intro i hi
    have hend := h.end_le
    have hdst := h.dst_eq
    exact (copySafely.frame _ _ _ _ _ (Or.inr (by omega))).trans (h.frame i hi)
  rest := Or.inr ⟨hread, rfl⟩

/-- Nothing is left to try. -/
theorem done (hlength : loop.copyLength ≤ 0) :
    Copied memory src byteCount dst (loop.bytesCopied, loop.dst) where
  longest := by
    have hsrc := h.src_eq
    have hend := loop.src_add_copyLength
    have hle := loop.end_le_max
    have hmax := h.max_le
    rcases h.rest with ⟨hall, hmax⟩ | ⟨hunread, hhalf⟩
    · rw [show loop.bytesCopied = byteCount by omega]
      exact Memory.longestPrefix_all ((show loop.bytesCopied = byteCount by omega) ▸ h.readable)
    · have hone : loop.pSrcMax - loop.pSrc = 1 := by
        have hsome : loop.pSrcMax - loop.pSrc ≠ 0 := by
          intro hzero
          rw [hzero] at hunread
          exact hunread fun i hi => absurd hi (Nat.not_lt_zero i)
        omega
      rw [hone, Memory.readableRange_one, Bool.not_eq_true, hsrc] at hunread
      exact Memory.longestPrefix_of_not_readable (by omega) h.readable hunread
  copied := h.copied
  frame := fun i hi => h.frame i (Nat.le_trans (Nat.le_max_right _ _) hi)

/-- The next byte cannot be read. -/
theorem stopped (hread : ¬memory.ReadableRange loop.pSrc loop.copyLength)
    (hlength : loop.copyLength = 1) : Copied memory src byteCount dst
      (loop.bytesCopied, (copySafely.call loop.pSrc loop.dst loop.pDst loop.copyLength).2) where
  longest := by
    have hend := h.end_le
    rw [hlength, Memory.readableRange_one, Bool.not_eq_true, h.src_eq] at hread
    exact Memory.longestPrefix_of_not_readable (by omega) h.readable hread
  copied := (h.shrink copySafely hread).copied
  frame := fun i hi =>
    (h.shrink copySafely hread).frame i (Nat.le_trans (Nat.le_max_right _ _) hi)

end Loop.Inv

/-- The bisection ends at the first byte that cannot be read, or at the end. -/
theorem copied_copyLoop {dst : Buffer} {loop : Loop} (h : loop.Inv memory src byteCount dst) :
    Copied memory src byteCount dst (copyLoop copySafely loop) := by
  induction loop using copyLoop.induct copySafely with
  | case1 loop hlength =>
    rw [copyLoop, if_pos hlength]
    exact h.done hlength
  | case2 loop hlength attempt hall ih =>
    rw [copyLoop, if_neg hlength]
    dsimp only
    rw [if_pos hall]
    exact ih (h.advance copySafely ((copySafely.result _ _ _ _).mp hall))
  | case3 loop hlength attempt hsome hone =>
    rw [copyLoop, if_neg hlength]
    dsimp only
    rw [if_neg hsome, if_pos hone]
    exact h.stopped copySafely (fun hread => hsome ((copySafely.result _ _ _ _).mpr hread))
      (by omega)
  | case4 loop hlength attempt hsome hmore ih =>
    rw [copyLoop, if_neg hlength]
    dsimp only
    rw [if_neg hsome, if_neg hmore]
    exact ih (h.shrink copySafely fun hread => hsome ((copySafely.result _ _ _ _).mpr hread))

/-- Exactly the longest prefix that can be read is copied. -/
theorem copied_copyMaxPossible (src : Nat) (dst : Buffer) (byteCount : Nat) :
    Copied memory src byteCount dst (copyMaxPossible copySafely src dst byteCount) := by
  have hresult := copySafely.result src dst 0 1
  have hframe : ∀ i, max 1 byteCount ≤ i → (copySafely.call src dst 0 1).2 i = dst i :=
    fun i hi => copySafely.frame _ _ _ _ _ (Or.inr (by omega))
  unfold copyMaxPossible
  dsimp only
  by_cases hfirst : (copySafely.call src dst 0 1).1 = 1
  · have hread := hresult.mp hfirst
    rw [if_neg (not_not.mpr hfirst)]
    by_cases hsmall : byteCount ≤ 1
    · rw [if_pos hsmall]
      refine ⟨Memory.longestPrefix_all fun i hi => hread i (by omega), fun i hi => ?_, hframe⟩
      have hcopied := copySafely.copied src dst 0 1 hread i (by omega)
      rwa [Nat.zero_add] at hcopied
    · rw [if_neg hsmall]
      have hloop : Copied memory src byteCount (copySafely.call src dst 0 1).2
          (copyLoop copySafely (Loop.start src byteCount (copySafely.call src dst 0 1).2)) := by
        apply copied_copyLoop
        refine ⟨rfl, rfl, Nat.le_refl _, fun i hi => absurd hi (Nat.not_lt_zero i),
          fun i hi => absurd hi (Nat.not_lt_zero i), fun _ _ => rfl, Or.inl ⟨rfl, rfl⟩⟩
      exact ⟨hloop.longest, hloop.copied, fun i hi => (hloop.frame i hi).trans (hframe i hi)⟩
  · rw [if_pos hfirst]
    refine ⟨?_, fun i hi => absurd hi (Nat.not_lt_zero i), hframe⟩
    have hread : memory.readable src = false := by
      rw [← Bool.not_eq_true, ← Memory.readableRange_one]
      exact fun hread => hfirst (hresult.mpr hread)
    exact Memory.longestPrefix_of_not_readable (Nat.zero_le _)
      (fun i hi => absurd hi (Nat.not_lt_zero i)) hread

end SentryCocoa.CrashMemory
