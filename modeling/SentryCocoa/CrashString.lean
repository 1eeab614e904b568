import SentryCocoa.CrashMemoryRanges
import SentryCocoa.Library.Unicode

/-! Strings that are looked for in memory: whether a place holds text, and the address that a
text contains. -/
namespace SentryCocoa.CrashString

open CrashMemory
open Library.Unicode

variable {memory : Memory}

/-- Only tab, CR, and LF are considered printable. -/
def printableControlChars : List Bool :=
  List.replicate 9 false ++ [true, true, false, false, true] ++ List.replicate 18 false

def continuationByteCount : List Nat :=
  List.replicate 0x20 1 ++ List.replicate 0x10 2 ++ List.replicate 0x08 3 ++
    List.replicate 0x04 4 ++ List.replicate 0x02 5 ++ List.replicate 0x02 0

/-- Reads so many bytes, and says whether they are continuation bytes. -/
def continuationLoop (memory : Memory) : (ptr count : Nat) → Option Bool
  | _, 0 => some true
  | ptr, count + 1 => do
    let ch ← memory.read ptr
    if ch &&& 0xc0 ≠ 0x80 then some false else continuationLoop memory (ptr + 1) count

def isPrintable (ch : UInt8) : Option Bool :=
  if ch < 0x20 then printableControlChars[ch.toNat]? else some true

/-- There is no answer if a byte is read that cannot be, or an entry that a table has not. -/
def stringLoop (memory : Memory) (start : Nat) (minLength : Int) (ptr stop : Nat) :
    Option Bool :=
  if ptr < stop then do
    let ch ← memory.read ptr
    if ch = 0 then some (decide ((ptr : Int) - start ≥ minLength))
    else if ch &&& 0x80 ≠ 0 then
      if ch &&& 0xc0 ≠ 0xc0 then some false
      else do
        let continuationBytes ← continuationByteCount[(ch &&& 0x3f).toNat]?
        if continuationBytes = 0 ∨ ptr + continuationBytes ≥ stop then some false
        else do
          let continued ← continuationLoop memory (ptr + 1) continuationBytes
          if continued then stringLoop memory start minLength (ptr + continuationBytes + 1) stop
          else some false
    else do
      let printable ← isPrintable ch
      if printable then stringLoop memory start minLength (ptr + 1) stop else some false
  else some false
termination_by stop - ptr

def isNullTerminatedUTF8String (memory : Memory) (address : Nat) (minLength maxLength : Int) :
    Option Bool :=
  stringLoop memory address minLength address (address + maxLength).toNat

/-! ## The texts that are found -/

/-- A byte of ASCII that may stand in a text. -/
def Printable (ch : Nat) : Prop :=
  0x20 ≤ ch ∧ ch < 0x80 ∨ ch = '\t'.toNat ∨ ch = '\n'.toNat ∨ ch = '\r'.toNat

instance : DecidablePred Printable := fun _ => inferInstanceAs (Decidable (_ ∨ _))

/-- How many bytes go on with the character that a byte starts. -/
def continuations (lead : Nat) : Option Nat :=
  if lead < 0xC0 then none
  else if lead < 0xE0 then some 1
  else if lead < 0xF0 then some 2
  else if lead < 0xF8 then some 3
  else if lead < 0xFC then some 4
  else if lead < 0xFE then some 5
  else none

def IsContinuation (ch : Nat) : Prop := 0x80 ≤ ch ∧ ch < 0xC0

instance : DecidablePred IsContinuation := fun _ => inferInstanceAs (Decidable (_ ∧ _))

/-- Bytes of the form of UTF-8 with up to six bytes for a character; the numbers that they
encode do not matter. -/
inductive Text : List UInt8 → Prop
  | nil : Text []
  | ascii {ch : UInt8} {rest : List UInt8} : Printable ch.toNat → Text rest → Text (ch :: rest)
  | sequence {lead : UInt8} {bytes rest : List UInt8} :
      continuations lead.toNat = some bytes.length →
      (∀ ch ∈ bytes, IsContinuation ch.toNat) → Text rest → Text (lead :: (bytes ++ rest))

/-! The tests on the bits of a byte. -/

theorem and_0xc0_eq_0x80_iff (ch : UInt8) : ch &&& 0xc0 = 0x80 ↔ IsContinuation ch.toNat :=
  forall_byte (p := fun ch => ch &&& 0xc0 = 0x80 ↔ IsContinuation ch.toNat)
    (by decide +kernel) ch

theorem and_0x80_eq_zero_iff (ch : UInt8) : ch &&& 0x80 = 0 ↔ ch.toNat < 0x80 :=
  forall_byte (p := fun ch => ch &&& 0x80 = 0 ↔ ch.toNat < 0x80) (by decide +kernel) ch

theorem and_0xc0_eq_0xc0_iff (ch : UInt8) : ch &&& 0xc0 = 0xc0 ↔ 0xC0 ≤ ch.toNat :=
  forall_byte (p := fun ch => ch &&& 0xc0 = 0xc0 ↔ 0xC0 ≤ ch.toNat) (by decide +kernel) ch

theorem continuationByteCount_lead (ch : UInt8) (h : 0xC0 ≤ ch.toNat) :
    continuationByteCount[(ch &&& 0x3f).toNat]? = some ((continuations ch.toNat).getD 0) :=
  forall_byte (p := fun ch => 0xC0 ≤ ch.toNat →
    continuationByteCount[(ch &&& 0x3f).toNat]? = some ((continuations ch.toNat).getD 0))
    (by decide +kernel) ch h

theorem isPrintable_eq (ch : UInt8) (h : ch.toNat < 0x80) :
    isPrintable ch = some (decide (Printable ch.toNat)) :=
  forall_byte (p := fun ch => ch.toNat < 0x80 →
    isPrintable ch = some (decide (Printable ch.toNat))) (by decide +kernel) ch h

theorem continuations_eq_some {lead count : Nat} (h : continuations lead = some count) :
    0xC0 ≤ lead ∧ 0 < count := by
  unfold continuations at h
  split at h
  · cases h
  · rename_i hlead
    repeat' split at h
    all_goals cases h
    all_goals omega

theorem not_printable_of_high {ch : Nat} (h : 0x80 ≤ ch) : ¬Printable ch := by
  rintro (⟨-, hsmall⟩ | rfl | rfl | rfl)
  · omega
  all_goals exact absurd h (by decide)

theorem not_printable_of_continuations {lead count : Nat}
    (h : continuations lead = some count) : ¬Printable lead :=
  not_printable_of_high (Nat.le_trans (by decide) (continuations_eq_some h).1)

/-! Texts in memory. -/

theorem text_cons_iff {ch : UInt8} {rest : List UInt8} :
    Text (ch :: rest) ↔ Printable ch.toNat ∧ Text rest ∨
      ∃ bytes rest', rest = bytes ++ rest' ∧ continuations ch.toNat = some bytes.length ∧
        (∀ ch ∈ bytes, IsContinuation ch.toNat) ∧ Text rest' := by
  constructor
  · rintro (_ | ⟨hprintable, hrest⟩ | ⟨hlead, hbytes, hrest⟩)
    · exact Or.inl ⟨hprintable, hrest⟩
    · exact Or.inr ⟨_, _, rfl, hlead, hbytes, hrest⟩
  · rintro (⟨hprintable, hrest⟩ | ⟨bytes, rest', rfl, hlead, hbytes, hrest⟩)
    · exact .ascii hprintable hrest
    · exact .sequence hlead hbytes hrest

/-- The bytes from a place on. -/
def bytesAt (memory : Memory) : (address count : Nat) → List UInt8
  | _, 0 => []
  | address, count + 1 => memory.byte address :: bytesAt memory (address + 1) count

theorem bytesAt_add (address first rest : Nat) :
    bytesAt memory address (first + rest) =
      bytesAt memory address first ++ bytesAt memory (address + first) rest := by
  induction first generalizing address with
  | zero => simp [bytesAt]
  | succ first ih =>
    rw [Nat.succ_add, bytesAt, bytesAt, ih, List.cons_append, Nat.succ_add_eq_add_succ]

@[simp] theorem length_bytesAt (address count : Nat) :
    (bytesAt memory address count).length = count := by
  induction count generalizing address with
  | zero => rfl
  | succ count ih => rw [bytesAt, List.length_cons, ih]

theorem forall_mem_bytesAt {p : UInt8 → Prop} (address count : Nat) :
    (∀ ch ∈ bytesAt memory address count, p ch) ↔
      ∀ i < count, p (memory.byte (address + i)) := by
  induction count generalizing address with
  | zero => simp [bytesAt]
  | succ count ih =>
    rw [bytesAt, List.forall_mem_cons, ih, Nat.forall_lt_succ_left]
    simp only [Nat.succ_add_eq_add_succ, Nat.succ_eq_add_one, Nat.add_zero]

/-- A text stands at `ptr`, with the NUL behind it at `last`. -/
def EndsAt (memory : Memory) (ptr last : Nat) : Prop :=
  ptr ≤ last ∧ memory.byte last = 0 ∧ Text (bytesAt memory ptr (last - ptr))

variable {ptr last : Nat}

theorem endsAt_self_iff : EndsAt memory ptr ptr ↔ memory.byte ptr = 0 := by
  unfold EndsAt
  rw [Nat.sub_self]
  exact ⟨fun h => h.2.1, fun h => ⟨Nat.le_refl _, h, .nil⟩⟩

theorem bytesAt_of_lt (h : ptr < last) :
    bytesAt memory ptr (last - ptr) =
      memory.byte ptr :: bytesAt memory (ptr + 1) (last - (ptr + 1)) := by
  rw [show last - ptr = last - (ptr + 1) + 1 by omega, bytesAt]

/-- What the first byte says about a text. -/
theorem endsAt_iff : EndsAt memory ptr last ↔
    ptr = last ∧ memory.byte ptr = 0 ∨
      Printable (memory.byte ptr).toNat ∧ EndsAt memory (ptr + 1) last ∨
      ∃ count, continuations (memory.byte ptr).toNat = some count ∧
        (∀ i < count, IsContinuation (memory.byte (ptr + 1 + i)).toNat) ∧
        EndsAt memory (ptr + 1 + count) last := by
  rcases Nat.lt_trichotomy ptr last with hlt | rfl | hgt
  · have hne : ptr ≠ last := by omega
    simp only [hne, false_and, false_or]
    unfold EndsAt
    rw [bytesAt_of_lt hlt, text_cons_iff]
    constructor
    · rintro ⟨-, hnul, hprintable | ⟨bytes, rest, hrest, hlead, hbytes, htext⟩⟩
      · exact Or.inl ⟨hprintable.1, hlt, hnul, hprintable.2⟩
      · right
        have hlength : last - (ptr + 1) = bytes.length + rest.length := by
          rw [← List.length_append, ← hrest, length_bytesAt]
        rw [hlength, bytesAt_add] at hrest
        have hparts := List.append_inj hrest (length_bytesAt _ _)
        refine ⟨bytes.length, hlead, ?_, by omega, hnul, ?_⟩
        · rw [← hparts.1] at hbytes
          exact (forall_mem_bytesAt _ _).mp hbytes
        · rw [show last - (ptr + 1 + bytes.length) = rest.length by omega, hparts.2]
          exact htext
    · rintro (⟨hprintable, -, hnul, htext⟩ | ⟨count, hlead, hbytes, hle, hnul, htext⟩)
      · exact ⟨hlt.le, hnul, Or.inl ⟨hprintable, htext⟩⟩
      · refine ⟨hlt.le, hnul, Or.inr ⟨bytesAt memory (ptr + 1) count, _, ?_, ?_, ?_, htext⟩⟩
        · rw [← bytesAt_add]
          congr 1
          omega
        · rw [length_bytesAt]
          exact hlead
        · exact (forall_mem_bytesAt _ _).mpr hbytes
  · rw [endsAt_self_iff]
    unfold EndsAt
    constructor
    · exact fun h => Or.inl ⟨rfl, h⟩
    · rintro (⟨-, h⟩ | ⟨-, h, -⟩ | ⟨count, -, -, h, -⟩)
      · exact h
      · exact absurd h (by omega)
      · exact absurd h (by omega)
  · unfold EndsAt
    constructor
    · exact fun h => absurd h.1 (by omega)
    · rintro (⟨h, -⟩ | ⟨-, h, -⟩ | ⟨count, -, -, h, -⟩)
      all_goals omega

theorem endsAt_of_nul (h : memory.byte ptr = 0) (hends : EndsAt memory ptr last) :
    last = ptr := by
  rcases endsAt_iff.mp hends with ⟨rfl, -⟩ | ⟨hprintable, -⟩ | ⟨count, hlead, -⟩
  · rfl
  · rw [h] at hprintable
    exact absurd hprintable (by decide)
  · rw [h] at hlead
    cases hlead

theorem endsAt_of_printable (h : Printable (memory.byte ptr).toNat) :
    EndsAt memory ptr last ↔ EndsAt memory (ptr + 1) last := by
  rw [endsAt_iff]
  constructor
  · rintro (⟨-, hnul⟩ | ⟨-, hends⟩ | ⟨count, hlead, -⟩)
    · rw [hnul] at h
      exact absurd h (by decide)
    · exact hends
    · exact absurd h (not_printable_of_continuations hlead)
  · exact fun hends => Or.inr (Or.inl ⟨h, hends⟩)

theorem endsAt_of_lead {count : Nat} (h : continuations (memory.byte ptr).toNat = some count) :
    EndsAt memory ptr last ↔
      (∀ i < count, IsContinuation (memory.byte (ptr + 1 + i)).toNat) ∧
        EndsAt memory (ptr + 1 + count) last := by
  rw [endsAt_iff]
  constructor
  · rintro (⟨-, hnul⟩ | ⟨hprintable, -⟩ | ⟨count', hlead, hends⟩)
    · rw [hnul] at h
      cases h
    · exact absurd hprintable (not_printable_of_continuations h)
    · rw [h] at hlead
      cases hlead
      exact hends
  · exact fun hends => Or.inr (Or.inr ⟨count, h, hends⟩)

theorem not_endsAt (hnul : memory.byte ptr ≠ 0) (hprintable : ¬Printable (memory.byte ptr).toNat)
    (hlead : continuations (memory.byte ptr).toNat = none) : ¬EndsAt memory ptr last := by
  rw [endsAt_iff, hlead]
  rintro (⟨-, h⟩ | ⟨h, -⟩ | ⟨count, h, -⟩)
  · exact hnul h
  · exact hprintable h
  · cases h

/-! ## The loops -/

theorem continuationLoop_eq {count : Nat} (hread : memory.ReadableRange ptr count) :
    continuationLoop memory ptr count =
      some (decide (∀ i < count, IsContinuation (memory.byte (ptr + i)).toNat)) := by
  induction count generalizing ptr with
  | zero => simp [continuationLoop]
  | succ count ih =>
    have hfirst : memory.read ptr = some (memory.byte ptr) := if_pos (hread 0 (Nat.succ_pos _))
    have hrest : memory.ReadableRange (ptr + 1) count := by
      intro i hi
      have hbyte := hread (1 + i) (by omega)
      rwa [← Nat.add_assoc] at hbyte
    rw [continuationLoop, hfirst, Option.bind_eq_bind, Option.bind_some, ih hrest]
    simp only [Nat.forall_lt_succ_left, Nat.succ_add_eq_add_succ, Nat.succ_eq_add_one,
      Nat.add_zero]
    by_cases hcontinued : IsContinuation (memory.byte ptr).toNat
    · rw [if_neg (not_not.mpr ((and_0xc0_eq_0x80_iff _).mpr hcontinued))]
      simp only [hcontinued, true_and]
    · rw [if_pos fun h => hcontinued ((and_0xc0_eq_0x80_iff _).mp h)]
      simp only [hcontinued, false_and, decide_false]

theorem ReadableRange.skip {stop : Nat} (skip : Nat)
    (hread : memory.ReadableRange ptr (stop - ptr)) :
    memory.ReadableRange (ptr + skip) (stop - (ptr + skip)) := by
  intro i hi
  have hbyte := hread (skip + i) (by omega)
  rwa [← Nat.add_assoc] at hbyte

variable (start : Nat) (minLength : Int) {stop : Nat}

section Steps

variable (hread : memory.ReadableRange ptr (stop - ptr)) (hlt : ptr < stop)
include hread hlt

theorem read_of_lt : memory.read ptr = some (memory.byte ptr) := if_pos (hread 0 (by omega))

theorem stringLoop_of_nul (hnul : memory.byte ptr = 0) :
    stringLoop memory start minLength ptr stop =
      some (decide ((ptr : Int) - start ≥ minLength)) := by
  rw [stringLoop, if_pos hlt, read_of_lt hread hlt, Option.bind_eq_bind, Option.bind_some,
    if_pos hnul]

theorem stringLoop_of_ascii (hnul : memory.byte ptr ≠ 0) (hlow : (memory.byte ptr).toNat < 0x80) :
    stringLoop memory start minLength ptr stop =
      if Printable (memory.byte ptr).toNat then stringLoop memory start minLength (ptr + 1) stop
      else some false := by
  rw [stringLoop, if_pos hlt, read_of_lt hread hlt, Option.bind_eq_bind, Option.bind_some,
    if_neg hnul, if_neg (not_not.mpr ((and_0x80_eq_zero_iff _).mpr hlow)), isPrintable_eq _ hlow,
    Option.bind_eq_bind, Option.bind_some]
  simp only [decide_eq_true_eq]

theorem stringLoop_of_high (hhigh : 0x80 ≤ (memory.byte ptr).toNat)
    (hlead : continuations (memory.byte ptr).toNat = none) :
    stringLoop memory start minLength ptr stop = some false := by
  have hnul : memory.byte ptr ≠ 0 := by
    intro h
    rw [h] at hhigh
    exact absurd hhigh (by decide)
  rw [stringLoop, if_pos hlt, read_of_lt hread hlt, Option.bind_eq_bind, Option.bind_some,
    if_neg hnul, if_pos fun h => absurd ((and_0x80_eq_zero_iff _).mp h) (by omega)]
  by_cases hbits : 0xC0 ≤ (memory.byte ptr).toNat
  · rw [if_neg (not_not.mpr ((and_0xc0_eq_0xc0_iff _).mpr hbits)),
      continuationByteCount_lead _ hbits, hlead, Option.bind_eq_bind, Option.bind_some,
      Option.getD_none, if_pos (Or.inl rfl)]
  · rw [if_pos fun h => hbits ((and_0xc0_eq_0xc0_iff _).mp h)]

theorem stringLoop_of_lead {count : Nat}
    (hlead : continuations (memory.byte ptr).toNat = some count) :
    stringLoop memory start minLength ptr stop =
      if ptr + count < stop ∧ ∀ i < count, IsContinuation (memory.byte (ptr + 1 + i)).toNat then
        stringLoop memory start minLength (ptr + (1 + count)) stop
      else some false := by
  have hbits := (continuations_eq_some hlead).1
  have hpositive := (continuations_eq_some hlead).2
  have hnul : memory.byte ptr ≠ 0 := by
    intro h
    rw [h] at hbits
    exact absurd hbits (by decide)
  rw [stringLoop, if_pos hlt, read_of_lt hread hlt, Option.bind_eq_bind, Option.bind_some,
    if_neg hnul, if_pos fun h => absurd ((and_0x80_eq_zero_iff _).mp h) (by omega),
    if_neg (not_not.mpr ((and_0xc0_eq_0xc0_iff _).mpr hbits)),
    continuationByteCount_lead _ hbits, hlead, Option.bind_eq_bind, Option.bind_some,
    Option.getD_some]
  by_cases hroom : ptr + count < stop
  · have hbytes : memory.ReadableRange (ptr + 1) count := by
      intro i hi
      have hbyte := hread (1 + i) (by omega)
      rwa [← Nat.add_assoc] at hbyte
    rw [if_neg (by omega), continuationLoop_eq hbytes, Option.bind_eq_bind, Option.bind_some]
    simp only [hroom, true_and, decide_eq_true_eq]
    rw [Nat.add_assoc, Nat.add_comm count 1]
  · rw [if_pos (by omega), if_neg fun h => hroom h.1]

end Steps

/-- A text that is long enough ends in front of the place where the loop has to stop. -/
def Found (memory : Memory) (ptr stop : Nat) : Prop :=
  ∃ last < stop, minLength ≤ (last : Int) - start ∧ EndsAt memory ptr last

/-- The loop says whether a text is found, and reads nothing from the end on. -/
theorem stringLoop_spec (hread : memory.ReadableRange ptr (stop - ptr)) :
    ∃ result, stringLoop memory start minLength ptr stop = some result ∧
      (result = true ↔ Found start minLength memory ptr stop) := by
  induction hn : stop - ptr using Nat.strongRecOn generalizing ptr with
  | ind n ih =>
    subst hn
    have hno (hends : ∀ last < stop, ¬EndsAt memory ptr last) :
        ∃ result, some false = some result ∧
          (result = true ↔ Found start minLength memory ptr stop) := by
      refine ⟨false, rfl, fun h => absurd h (by decide), ?_⟩
      rintro ⟨last, hlast, -, hfound⟩
      exact absurd hfound (hends last hlast)
    by_cases hlt : ptr < stop
    · have hnext (skip : Nat) := ih (stop - (ptr + (1 + skip))) (by omega)
        (ReadableRange.skip (1 + skip) hread) rfl
      by_cases hnul : memory.byte ptr = 0
      · rw [stringLoop_of_nul start minLength hread hlt hnul]
        refine ⟨_, rfl, ?_⟩
        rw [decide_eq_true_iff]
        constructor
        · exact fun hlength => ⟨ptr, hlt, hlength, endsAt_self_iff.mpr hnul⟩
        · rintro ⟨last, -, hlength, hends⟩
          rwa [endsAt_of_nul hnul hends] at hlength
      · by_cases hlow : (memory.byte ptr).toNat < 0x80
        · rw [stringLoop_of_ascii start minLength hread hlt hnul hlow]
          by_cases hprintable : Printable (memory.byte ptr).toNat
          · rw [if_pos hprintable]
            simp only [Found, endsAt_of_printable hprintable]
            exact hnext 0
          · rw [if_neg hprintable]
            have hlead : continuations (memory.byte ptr).toNat = none := if_pos (by omega)
            exact hno fun last _ => not_endsAt hnul hprintable hlead
        · rw [Nat.not_lt] at hlow
          rcases hlead : continuations (memory.byte ptr).toNat with _ | count
          · rw [stringLoop_of_high start minLength hread hlt hlow hlead]
            exact hno fun last _ => not_endsAt hnul (not_printable_of_high hlow) hlead
          · rw [stringLoop_of_lead start minLength hread hlt hlead]
            by_cases hcontinued : ptr + count < stop ∧
                ∀ i < count, IsContinuation (memory.byte (ptr + 1 + i)).toNat
            · rw [if_pos hcontinued]
              have hends (last : Nat) :
                  EndsAt memory ptr last ↔ EndsAt memory (ptr + (1 + count)) last := by
                rw [endsAt_of_lead hlead, ← Nat.add_assoc]
                exact and_iff_right hcontinued.2
              simp only [Found, hends]
              exact hnext count
            · rw [if_neg hcontinued]
              apply hno
              intro last hlast hends
              have hcount := (endsAt_of_lead hlead).mp hends
              have hle := hcount.2.1
              exact hcontinued ⟨by omega, hcount.1⟩
    · rw [stringLoop, if_neg hlt]
      apply hno
      rintro last hlast ⟨hle, -⟩
      omega

/-! ## What is found -/

/-- The NUL that ends a string. -/
def FirstNul (memory : Memory) (address length : Nat) : Prop :=
  memory.byte (address + length) = 0 ∧ ∀ i < length, memory.byte (address + i) ≠ 0

theorem FirstNul.eq {address n m : Nat} (h : FirstNul memory address n)
    (h' : FirstNul memory address m) : n = m := by
  rcases Nat.lt_trichotomy n m with hlt | rfl | hgt
  · exact absurd h.1 (h'.2 n hlt)
  · rfl
  · exact absurd h'.1 (h.2 m hgt)

theorem zero_notMem_of_text {bytes : List UInt8} (h : Text bytes) : 0 ∉ bytes := by
  induction h with
  | nil => exact List.not_mem_nil
  | ascii hprintable _ ih =>
    rw [List.mem_cons]
    rintro (rfl | hrest)
    · exact absurd hprintable (by decide)
    · exact ih hrest
  | sequence hlead hbytes _ ih =>
    rw [List.mem_cons, List.mem_append]
    rintro (rfl | hmem | hrest)
    · cases hlead
    · exact absurd (hbytes 0 hmem) (by decide)
    · exact ih hrest

/-- A character that is not a control character, or one of those that may stand in a text. -/
def NoControl (c : Char) : Prop := 0x20 ≤ c.toNat ∨ c = '\t' ∨ c = '\n' ∨ c = '\r'

theorem printable_toNat_iff {c : Char} (h : c.toNat < 0x80) :
    Printable c.toNat ↔ NoControl c := by
  unfold Printable NoControl
  simp only [← Char.toNat_inj, h, and_true]

/-- The bytes of a character have the form of UTF-8. -/
theorem text_encodePoint_append {point : Nat} (hhigh : 0x80 ≤ point) (hmax : point ≤ 0x10FFFF)
    {rest : List UInt8} : Text (encodePoint point ++ rest) ↔ Text rest := by
  have hcontinuation (n : Nat) : IsContinuation (UInt8.ofNat (n % 0x40 + 0x80)).toNat := by
    unfold IsContinuation
    rw [toNat_ofNat_add (by omega)]
    omega
  have hsequence {lead : UInt8} {bytes : List UInt8}
      (hlead : continuations lead.toNat = some bytes.length)
      (hbytes : ∀ ch ∈ bytes, IsContinuation ch.toNat) :
      Text (lead :: (bytes ++ rest)) ↔ Text rest := by
    rw [text_cons_iff]
    constructor
    · rintro (⟨hprintable, -⟩ | ⟨bytes', rest', hsame, hlead', -, hrest⟩)
      · exact absurd hprintable (not_printable_of_continuations hlead)
      · rw [hlead, Option.some_inj] at hlead'
        rwa [(List.append_inj hsame hlead').2]
    · exact fun hrest => Or.inr ⟨bytes, rest, rfl, hlead, hbytes, hrest⟩
  unfold encodePoint
  rw [if_neg (by omega)]
  split
  · apply @hsequence _ [_]
    · rw [toNat_ofNat_add (by omega)]
      unfold continuations
      rw [if_neg (by omega), if_pos (by omega)]
      rfl
    · simp only [List.mem_singleton, forall_eq]
      exact hcontinuation _
  · split
    · apply @hsequence _ [_, _]
      · rw [toNat_ofNat_add (by omega)]
        unfold continuations
        rw [if_neg (by omega), if_neg (by omega), if_pos (by omega)]
        rfl
      · rw [List.forall_mem_cons, List.forall_mem_singleton]
        exact ⟨hcontinuation _, hcontinuation _⟩
    · apply @hsequence _ [_, _, _]
      · rw [toNat_ofNat_add (by omega)]
        unfold continuations
        rw [if_neg (by omega), if_neg (by omega), if_neg (by omega), if_pos (by omega)]
        rfl
      · rw [List.forall_mem_cons, List.forall_mem_cons, List.forall_mem_singleton]
        exact ⟨hcontinuation _, hcontinuation _, hcontinuation _⟩

theorem text_utf8_iff {text : List Char} : Text (utf8 text) ↔ ∀ c ∈ text, NoControl c := by
  induction text with
  | nil => exact ⟨fun _ c hc => absurd hc List.not_mem_nil, fun _ => .nil⟩
  | cons c text ih =>
    rw [utf8_cons, List.forall_mem_cons, ← ih]
    by_cases hlow : c.toNat < 0x80
    · have hbyte : (UInt8.ofNat c.toNat).toNat = c.toNat := by
        rw [UInt8.toNat_ofNat']
        omega
      rw [encodePoint, if_pos (by omega), List.singleton_append, text_cons_iff, hbyte,
        printable_toNat_iff hlow]
      refine or_iff_left ?_
      rintro ⟨bytes, rest, -, hlead, -⟩
      have hlead := (continuations_eq_some hlead).1
      omega
    · have hvalid : c.toNat.isValidChar := c.valid
      unfold Nat.isValidChar at hvalid
      rw [text_encodePoint_append (by omega) (by omega)]
      exact (and_iff_right (Or.inl (by omega))).symm

/-- What the function says, and that it reads only what it may. -/
theorem isNullTerminatedUTF8String_eq (address : Nat) (maxLength : Int)
    (hread : memory.ReadableRange address maxLength.toNat) :
    ∃ result, isNullTerminatedUTF8String memory address minLength maxLength = some result ∧
      (result = true ↔ ∃ length, FirstNul memory address length ∧ (length : Int) < maxLength ∧
        minLength ≤ length ∧ Text (bytesAt memory address length)) := by
  have hrange : memory.ReadableRange address ((address + maxLength).toNat - address) := by
    rw [show ((address : Int) + maxLength).toNat - address = maxLength.toNat by omega]
    exact hread
  obtain ⟨result, hresult, hfound⟩ := stringLoop_spec address minLength hrange
  refine ⟨result, hresult, hfound.trans ?_⟩
  constructor
  · rintro ⟨last, hlast, hlength, hle, hnul, htext⟩
    have hplace : address + (last - address) = last := by omega
    refine ⟨last - address, ⟨by rwa [hplace], ?_⟩, by omega, by omega, htext⟩
    intro i hi hzero
    apply zero_notMem_of_text htext
    by_contra hmem
    exact (forall_mem_bytesAt (p := (· ≠ 0)) _ _).mp
      (fun ch hch h => hmem (h ▸ hch)) i hi hzero
  · rintro ⟨length, ⟨hnul, -⟩, hless, hlength, htext⟩
    have hplace : address + length - address = length := by omega
    exact ⟨address + length, by omega, by omega, by omega, hnul, by rwa [hplace]⟩

/-- The function returns true exactly for a text that is long enough and ends in front of
`maxLength` bytes, and reads none behind them. Where the bytes are those of characters, it does
so exactly if none is a control character but tab, line feed and carriage return. -/
theorem isNullTerminatedUTF8String_spec (memory : Memory) (address : Nat)
    (minLength maxLength : Int) (hread : memory.ReadableRange address maxLength.toNat) :
    ∃ result, isNullTerminatedUTF8String memory address minLength maxLength = some result ∧
      (result = true ↔ ∃ length, FirstNul memory address length ∧ (length : Int) < maxLength ∧
        minLength ≤ length ∧ Text (bytesAt memory address length)) ∧
      ∀ length text, FirstNul memory address length → (length : Int) < maxLength →
        bytesAt memory address length = utf8 text →
          (result = true ↔ minLength ≤ length ∧ ∀ c ∈ text, NoControl c) := by
  obtain ⟨result, hresult, hiff⟩ := isNullTerminatedUTF8String_eq minLength address maxLength hread
  refine ⟨result, hresult, hiff, fun length text hnul hless hbytes => ?_⟩
  rw [hiff, ← text_utf8_iff, ← hbytes]
  constructor
  · rintro ⟨length', hnul', -, hlength, htext⟩
    rw [hnul.eq hnul']
    exact ⟨hlength, htext⟩
  · exact fun h => ⟨length, hnul, hless, h.1, h.2⟩

/-- Memory that holds so many bytes and nothing else. -/
def ofBytes (bytes : List UInt8) : Memory where
  readable address := address < bytes.length
  byte address := bytes.getD address 0

theorem readableRange_ofBytes (bytes : List UInt8) :
    (ofBytes bytes).ReadableRange 0 bytes.length := by
  intro i hi
  rw [Nat.zero_add]
  exact decide_eq_true hi

theorem isNullTerminatedUTF8String_spec_example :
    ∃ result, isNullTerminatedUTF8String (ofBytes [0xC3, 0xA4, 0x00]) 0 1 3 = some result ∧
      (result = true ↔ ∃ length, FirstNul (ofBytes [0xC3, 0xA4, 0x00]) 0 length ∧
        (length : Int) < 3 ∧ 1 ≤ (length : Int) ∧
        Text (bytesAt (ofBytes [0xC3, 0xA4, 0x00]) 0 length)) ∧
      ∀ length text, FirstNul (ofBytes [0xC3, 0xA4, 0x00]) 0 length → (length : Int) < 3 →
        bytesAt (ofBytes [0xC3, 0xA4, 0x00]) 0 length = utf8 text →
          (result = true ↔ 1 ≤ (length : Int) ∧ ∀ c ∈ text, NoControl c) :=
  isNullTerminatedUTF8String_spec _ 0 1 3 (readableRange_ofBytes [0xC3, 0xA4, 0x00])

/-- No character has the lead byte that only forms that are too long would have. -/
theorem lead_0xC0_notMem_utf8 (text : List Char) : 0xC0 ∉ utf8 text := by
  intro hmem
  obtain ⟨c, -, hc⟩ := List.mem_flatMap.mp hmem
  have hvalid : c.toNat.isValidChar := c.valid
  unfold Nat.isValidChar at hvalid
  have hbyte {n : Nat} (h : 0xC0 = UInt8.ofNat n) (hn : n < 256) : n = 0xC0 := by
    have hnat := congrArg UInt8.toNat h
    rw [UInt8.toNat_ofNat'] at hnat
    simp only [UInt8.reduceToNat] at hnat
    omega
  rw [utf8EncodeChar_eq, encodePoint] at hc
  have hall (ns : List Nat) (hns : ∀ n ∈ ns, n < 256 ∧ n ≠ 0xC0) :
      0xC0 ∉ ns.map UInt8.ofNat := by
    rw [List.mem_map]
    rintro ⟨n, hn, hsame⟩
    exact (hns n hn).2 (hbyte hsame.symm (hns n hn).1)
  repeat' split at hc
  · refine hall [_] ?_ hc
    rw [List.forall_mem_singleton]
    omega
  · refine hall [_, _] ?_ hc
    rw [List.forall_mem_cons, List.forall_mem_singleton]
    omega
  · refine hall [_, _, _] ?_ hc
    rw [List.forall_mem_cons, List.forall_mem_cons, List.forall_mem_singleton]
    omega
  · refine hall [_, _, _, _] ?_ hc
    rw [List.forall_mem_cons, List.forall_mem_cons, List.forall_mem_cons,
      List.forall_mem_singleton]
    omega

/-- A NUL in two bytes is found, although no character is encoded so. -/
theorem overlong_found :
    ¬(isNullTerminatedUTF8String (ofBytes [0xC0, 0x80, 0x00]) 0 1 3 = some true ↔
      ∃ length text, FirstNul (ofBytes [0xC0, 0x80, 0x00]) 0 length ∧ length < 3 ∧
        1 ≤ length ∧ bytesAt (ofBytes [0xC0, 0x80, 0x00]) 0 length = utf8 text ∧
        ∀ c ∈ text, NoControl c) := by
  have hnul : FirstNul (ofBytes [0xC0, 0x80, 0x00]) 0 2 := by
    unfold FirstNul
    decide
  have hnext : ∀ ch ∈ [(0x80 : UInt8)], IsContinuation ch.toNat :=
    List.forall_mem_singleton.2 (by decide)
  intro hclaim
  obtain ⟨result, hresult, hiff⟩ := isNullTerminatedUTF8String_eq 1 0 3
    (readableRange_ofBytes [0xC0, 0x80, 0x00])
  have htrue : result = true :=
    hiff.mpr ⟨2, hnul, by decide, by decide, @Text.sequence 0xC0 [0x80] [] rfl hnext .nil⟩
  rw [hresult, htrue] at hclaim
  obtain ⟨length, text, hnul', -, -, hbytes, -⟩ := hclaim.mp rfl
  rw [← hnul.eq hnul'] at hbytes
  have hmem : (0xC0 : UInt8) ∈ utf8 text := by
    rw [← hbytes]
    decide
  exact lead_0xC0_notMem_utf8 text hmem

/-! ## Places that may hold a string -/

def kMinStringLength : Int := 4

/-- The memory of the local buffer. -/
def bufferMemory (buffer : Buffer) : Memory where
  readable address := address < 500
  byte address := buffer address

def isValidString (copySafely : CopySafely memory) (address : UInt64) (buffer : Buffer) :
    Option Bool :=
  if address = 0 then some false
  else if address + 500 < address then some false
  else
    let copy := copySafely.call address.toNat buffer 0 500
    if copy.1 = 0 then some false
    else isNullTerminatedUTF8String (bufferMemory copy.2) 0 kMinStringLength 500

theorem bytesAt_congr {memory' : Memory} {address address' count : Nat}
    (h : ∀ i < count, memory.byte (address + i) = memory'.byte (address' + i)) :
    bytesAt memory address count = bytesAt memory' address' count := by
  induction count generalizing address address' with
  | zero => rfl
  | succ count ih =>
    rw [bytesAt, bytesAt]
    congr 1
    · exact h 0 (Nat.succ_pos _)
    · apply ih
      intro i hi
      have hbyte := h (1 + i) (by omega)
      rwa [← Nat.add_assoc, ← Nat.add_assoc] at hbyte

theorem firstNul_congr {memory' : Memory} {address address' length : Nat}
    (h : ∀ i ≤ length, memory.byte (address + i) = memory'.byte (address' + i)) :
    FirstNul memory address length ↔ FirstNul memory' address' length := by
  unfold FirstNul
  rw [h length (Nat.le_refl _)]
  apply and_congr_right
  exact fun _ => forall₂_congr fun i hi => by rw [h i hi.le]

/-- Nothing outside of the buffer is read, and where the memory can be read the answer is about
the text in it. -/
theorem isValidString_eq (copySafely : CopySafely memory) (address : UInt64) (buffer : Buffer) :
    ∃ result, isValidString copySafely address buffer = some result ∧
      (address ≠ 0 → ¬address + 500 < address → memory.ReadableRange address.toNat 500 →
        (result = true ↔ ∃ length, FirstNul memory address.toNat length ∧ length < 500 ∧
          4 ≤ length ∧ Text (bytesAt memory address.toNat length))) := by
  unfold isValidString
  split
  case isTrue hzero => exact ⟨false, rfl, fun h => absurd hzero h⟩
  split
  case isTrue hwrapped => exact ⟨false, rfl, fun _ h => absurd hwrapped h⟩
  dsimp only
  split
  case isTrue hfailed =>
    refine ⟨false, rfl, fun _ _ hread => ?_⟩
    rw [(copySafely.result _ _ _ _).mpr hread] at hfailed
    cases hfailed
  have hread : (bufferMemory (copySafely.call address.toNat buffer 0 500).2).ReadableRange 0
      (500 : Int).toNat := by
    intro i hi
    rw [Nat.zero_add]
    exact decide_eq_true hi
  obtain ⟨result, hresult, hiff⟩ := isNullTerminatedUTF8String_eq kMinStringLength 0 500 hread
  refine ⟨result, hresult, fun _ _ hreadable => hiff.trans (exists_congr fun length => ?_)⟩
  have hcopied := copySafely.copied address.toNat buffer 0 500 hreadable
  have hcast :
      ((length : Int) < 500 ↔ length < 500) ∧ (kMinStringLength ≤ length ↔ 4 ≤ length) := by
    unfold kMinStringLength
    omega
  rw [hcast.1, hcast.2]
  by_cases hless : length < 500
  · rw [firstNul_congr fun i hi => hcopied i (by omega),
      bytesAt_congr fun i hi => hcopied i (by omega)]
  · simp only [hless, false_and, and_false]

end SentryCocoa.CrashString
