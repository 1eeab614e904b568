import Mathlib.Data.Int.ModEq
import Mathlib.Data.List.Basic

/-! The ids of crash reports. The calendar time of the launch is packed into one number, which
makes the upper bits of the ids, and the reports of the launch are counted in the lower ones. -/
namespace SentryCocoa.ReportStore

/-- The fields of `struct tm` that are read. -/
structure Tm where
  tm_sec : Int32
  tm_min : Int32
  tm_hour : Int32
  tm_yday : Int32
  tm_year : Int32
  deriving DecidableEq, Repr

/-- `g_nextUniqueIDHigh` and `g_nextUniqueIDLow`. -/
structure UniqueIDs where
  nextUniqueIDHigh : Int64
  nextUniqueIDLow : UInt32
  deriving DecidableEq, Repr

def packed (time : Tm) : Int64 :=
  time.tm_sec.toInt64 + time.tm_min.toInt64 * 61 + time.tm_hour.toInt64 * 61 * 60 +
    time.tm_yday.toInt64 * 61 * 60 * 24 + time.tm_year.toInt64 * 61 * 60 * 24 * 366

/-- The constants are of 32 bits, and so is the complement of the first. -/
def initializeIDs (time : Tm) : UniqueIDs :=
  let baseID := packed time <<< 23
  { nextUniqueIDHigh := baseID &&& (~~~(0xffffffff : UInt32)).toUInt64.toInt64
    nextUniqueIDLow := (baseID &&& (0xffffffff : UInt32).toUInt64.toInt64).toUInt64.toUInt32 }

def getNextUniqueID (ids : UniqueIDs) : Int64 × UniqueIDs :=
  (ids.nextUniqueIDHigh + ids.nextUniqueIDLow.toUInt64.toInt64,
    { ids with nextUniqueIDLow := ids.nextUniqueIDLow + 1 })

def issued (ids : UniqueIDs) : Nat → List Int64
  | 0 => []
  | count + 1 => (getNextUniqueID ids).1 :: issued (getNextUniqueID ids).2 count

/-- The ids of a launch that writes as many reports. -/
def reportIDs (time : Tm) (count : Nat) : List Int64 := issued (initializeIDs time) count

/-- The ids are positive, and those of the later launch are greater than those of the earlier
one. -/
def Chronological (earlier later : Tm) (count count' : Nat) : Prop :=
  (∀ id ∈ reportIDs earlier count, 0 < id) ∧ (∀ id ∈ reportIDs later count', 0 < id) ∧
    ∀ id ∈ reportIDs earlier count, ∀ id' ∈ reportIDs later count', id < id'

/-- The calendar time as one number, as far as it reaches the ids. -/
def slot (time : Tm) : Int :=
  (time.tm_sec.toInt + time.tm_min.toInt * 61 + time.tm_hour.toInt * 61 * 60 +
    time.tm_yday.toInt * 61 * 60 * 24 + time.tm_year.toInt * 61 * 60 * 24 * 366) % 512

theorem slot_nonneg (time : Tm) : 0 ≤ slot time := Int.emod_nonneg _ (by decide)

theorem slot_lt (time : Tm) : slot time < 512 := Int.emod_lt_of_pos _ (by decide)

/-! The bits that are left. -/

theorem bmod_emod (x : Int) : x.bmod (2 ^ 64) % 512 = x % 512 := by
  rw [Int.bmod_def]
  split
  · omega
  · omega

theorem toInt_add_emod (x y : Int64) : (x + y).toInt % 512 = (x.toInt + y.toInt) % 512 := by
  rw [Int64.toInt_add, bmod_emod]

theorem toInt_mul_emod (x y : Int64) : (x * y).toInt % 512 = x.toInt * y.toInt % 512 := by
  rw [Int64.toInt_mul, bmod_emod]

theorem packed_emod (time : Tm) : (packed time).toInt % 512 = slot time := by
  have hmul : ∀ x y : Int64, ∀ a : Int, x.toInt % 512 = a % 512 →
      (x * y).toInt % 512 = a * y.toInt % 512 := by
    intro x y a hx
    rw [toInt_mul_emod, Int.mul_emod, hx, ← Int.mul_emod]
  have hadd : ∀ x y : Int64, ∀ a b : Int, x.toInt % 512 = a % 512 → y.toInt % 512 = b % 512 →
      (x + y).toInt % 512 = (a + b) % 512 := by
    intro x y a b hx hy
    rw [toInt_add_emod, Int.add_emod, hx, hy, ← Int.add_emod]
  have hfield : ∀ x : Int32, x.toInt64.toInt % 512 = x.toInt % 512 := by
    intro x
    rw [Int32.toInt_toInt64]
  unfold packed slot
  exact hadd _ _ _ _ (hadd _ _ _ _ (hadd _ _ _ _ (hadd _ _ _ _ (hfield _)
    (hmul _ 61 _ (hfield _))) (hmul _ 60 _ (hmul _ 61 _ (hfield _))))
      (hmul _ 24 _ (hmul _ 60 _ (hmul _ 61 _ (hfield _)))))
        (hmul _ 366 _ (hmul _ 24 _ (hmul _ 60 _ (hmul _ 61 _ (hfield _)))))

/-- The complement is zero, so no bit is kept above the lower 32. -/
theorem nextUniqueIDHigh_initializeIDs (time : Tm) :
    (initializeIDs time).nextUniqueIDHigh = 0 := by
  have hmask : (~~~(0xffffffff : UInt32)).toUInt64.toInt64 = 0 := by decide
  unfold initializeIDs
  dsimp only
  rw [hmask]
  exact Int64.and_zero

theorem nextUniqueIDLow_initializeIDs (time : Tm) :
    ((initializeIDs time).nextUniqueIDLow.toNat : Int) = slot time * 2 ^ 23 := by
  have hbits : (initializeIDs time).nextUniqueIDLow.toNat =
      (packed time).toBitVec.toNat * 2 ^ 23 % 2 ^ 64 % 2 ^ 32 := by
    have hmask : (0xffffffff : UInt32).toUInt64.toInt64.toBitVec.toNat = 2 ^ 32 - 1 := by decide
    have hshift : ((23 : Int64).toBitVec.smod 64).toNat = 23 := by decide
    unfold initializeIDs
    dsimp only
    rw [← UInt32.toNat_toBitVec, UInt64.toBitVec_toUInt32, Int64.toBitVec_toUInt64,
      Int64.toBitVec_and, Int64.toBitVec_shiftLeft, BitVec.toNat_setWidth, BitVec.toNat_and, hmask,
      Nat.and_two_pow_sub_one_eq_mod, Nat.mod_mod, BitVec.shiftLeft_eq', BitVec.toNat_shiftLeft,
      hshift, Nat.shiftLeft_eq]
  have hslot := packed_emod time
  rw [Int64.toInt, BitVec.toInt_eq_toNat_bmod, bmod_emod] at hslot
  rw [hbits]
  omega

/-! The ids that are issued. -/

theorem toInt_getNextUniqueID {ids : UniqueIDs} (hhigh : ids.nextUniqueIDHigh = 0) :
    (getNextUniqueID ids).1.toInt = ids.nextUniqueIDLow.toNat := by
  have hlow := ids.nextUniqueIDLow.toNat_lt
  unfold getNextUniqueID
  dsimp only
  rw [hhigh, Int64.zero_add, Int64.toInt, UInt64.toBitVec_toInt64, BitVec.toInt_eq_toNat_bmod,
    UInt64.toNat_toBitVec, UInt32.toNat_toUInt64, Int.bmod_def, if_pos]
  · omega
  · omega

/-- The ids of a launch follow one another. -/
theorem mem_issued (ids : UniqueIDs) (hhigh : ids.nextUniqueIDHigh = 0) (count : Nat)
    (hcount : ids.nextUniqueIDLow.toNat + count ≤ 2 ^ 32) (id : Int64) :
    id ∈ issued ids count ↔
      ∃ index < count, id.toInt = (ids.nextUniqueIDLow.toNat + index : Int) := by
  induction count generalizing ids with
  | zero => simp [issued]
  | succ count ih =>
    have hfirst := toInt_getNextUniqueID hhigh
    rw [issued, List.mem_cons]
    cases count with
    | zero =>
      rw [issued, ← Int64.toInt_inj, hfirst]
      simp
    | succ count =>
      have hnext : (getNextUniqueID ids).2.nextUniqueIDLow.toNat =
          ids.nextUniqueIDLow.toNat + 1 := by
        have hadd := UInt32.toNat_add ids.nextUniqueIDLow 1
        have hone : (1 : UInt32).toNat = 1 := by decide
        change (ids.nextUniqueIDLow + 1).toNat = _
        omega
      rw [ih (getNextUniqueID ids).2 hhigh (by omega), ← Int64.toInt_inj, hfirst, hnext]
      constructor
      · rintro (hid | ⟨index, hindex, hid⟩)
        · exact ⟨0, by omega, by omega⟩
        · exact ⟨index + 1, by omega, by omega⟩
      · rintro ⟨index, hindex, hid⟩
        cases index with
        | zero => exact Or.inl (by omega)
        | succ index => exact Or.inr ⟨index, by omega, by omega⟩

theorem mem_reportIDs (time : Tm) {count : Nat} (hcount : count < 2 ^ 23) (id : Int64) :
    id ∈ reportIDs time count ↔
      ∃ index < count, id.toInt = (slot time * 2 ^ 23 + index : Int) := by
  have hlow := nextUniqueIDLow_initializeIDs time
  have hslot := slot_lt time
  have hmem := mem_issued _ (nextUniqueIDHigh_initializeIDs time) count (by omega) id
  rw [hlow] at hmem
  exact hmem

theorem exists_first (time : Tm) {count : Nat} (hcount : count ≠ 0) :
    ∃ id ∈ reportIDs time count, id.toInt = slot time * 2 ^ 23 := by
  obtain ⟨rest, rfl⟩ := Nat.exists_eq_succ_of_ne_zero hcount
  refine ⟨_, List.mem_cons_self, ?_⟩
  rw [toInt_getNextUniqueID (nextUniqueIDHigh_initializeIDs time),
    nextUniqueIDLow_initializeIDs time]

theorem positive_iff (time : Tm) {count : Nat} (hcount : count < 2 ^ 23) :
    (∀ id ∈ reportIDs time count, 0 < id) ↔ (count ≠ 0 → 0 < slot time) := by
  have hslot := slot_nonneg time
  constructor
  · intro h hne
    obtain ⟨id, hmem, hid⟩ := exists_first time hne
    have hpositive := Int64.lt_iff_toInt_lt.mp (h id hmem)
    rw [Int64.toInt_zero] at hpositive
    omega
  · intro h id hmem
    obtain ⟨index, hindex, hid⟩ := (mem_reportIDs time hcount id).mp hmem
    have hpositive := h (Nat.ne_zero_of_lt hindex)
    rw [Int64.lt_iff_toInt_lt, Int64.toInt_zero]
    omega

/-- The ids of two launches are positive and in order when no reports were written, and else if
and only if what reaches them of the calendar time is not zero and has increased. -/
theorem chronological_iff (earlier later : Tm) {count count' : Nat} (hcount : count < 2 ^ 23)
    (hcount' : count' < 2 ^ 23) :
    Chronological earlier later count count' ↔
      (count ≠ 0 → 0 < slot earlier) ∧ (count' ≠ 0 → 0 < slot later) ∧
        (count ≠ 0 → count' ≠ 0 → slot earlier < slot later) := by
  unfold Chronological
  rw [positive_iff earlier hcount, positive_iff later hcount']
  apply and_congr_right'
  apply and_congr_right'
  constructor
  · intro h hne hne'
    obtain ⟨id, hmem, hid⟩ := exists_first earlier hne
    obtain ⟨id', hmem', hid'⟩ := exists_first later hne'
    have hless := Int64.lt_iff_toInt_lt.mp (h id hmem id' hmem')
    omega
  · intro h id hmem id' hmem'
    obtain ⟨index, hindex, hid⟩ := (mem_reportIDs earlier hcount id).mp hmem
    obtain ⟨index', hindex', hid'⟩ := (mem_reportIDs later hcount' id').mp hmem'
    have hless := h (Nat.ne_zero_of_lt hindex) (Nat.ne_zero_of_lt hindex')
    rw [Int64.lt_iff_toInt_lt]
    omega

/-- Two launches at the start of 2024, one minute after the other, with two reports each. -/
theorem chronological_example :
    Chronological ⟨0, 1, 0, 0, 124⟩ ⟨0, 2, 0, 0, 124⟩ 2 2 := by
  apply (chronological_iff _ _ (by decide) (by decide)).mpr
  decide

/-- Four minutes and eleven seconds after the start of 2024 the ids reach their end, and one
second later they start at zero. -/
theorem next_second_starts_at_zero :
    ¬Chronological ⟨11, 4, 0, 0, 124⟩ ⟨12, 4, 0, 0, 124⟩ 1 1 := by
  rintro ⟨-, hpositive, -⟩
  have hslot : slot ⟨12, 4, 0, 0, 124⟩ = 0 := by decide
  have hlater := (positive_iff _ (by decide)).mp hpositive (by decide)
  omega

end SentryCocoa.ReportStore
