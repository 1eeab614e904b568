import SentryCocoa.Session
import SentryCocoa.Library.Decimal
import Mathlib.Data.Rat.Floor
import Mathlib.Order.Basic
import Mathlib.Tactic.Linarith

/-! The names of envelope files and their order. A name has the time when the envelope was
stored, a counter and a random identifier. Names are compared without regard to case; on the
characters that they have, this is the order of their texts. -/
namespace SentryCocoa.FileManager
open SentryCocoa.Session SentryCocoa.Envelope SentryCocoa.Library.Decimal

def nameCharacters : List Char := "0123456789-.ABCDEFjson".toList

structure JsonName where
  characters : List Char
  form : ∀ c ∈ characters, c ∈ nameCharacters

/-- The nearest natural number, and the even one of two. -/
def roundHalfEven (value : ℚ) : Nat :=
  let below := value.floor.toNat
  if value - below < 1 / 2 ∨ value - below = 1 / 2 ∧ below % 2 = 0 then below else below + 1

/-- What `%f` prints. Only the digits behind the point have a fixed number. -/
def printFloat (value : ℚ) : List Char :=
  let millionths := roundHalfEven ((if value < 0 then -value else value) * 10 ^ 6)
  (if value < 0 then ['-'] else []) ++ Nat.toDigits 10 (millionths / 10 ^ 6) ++
    '.' :: padded 6 (millionths % 10 ^ 6)

/-! The characters. -/

theorem char_of_lt (property : Char → Prop) {bound : Nat}
    (h : ∀ n < bound, property (Char.ofNat n)) {c : Char} (hc : c.toNat < bound) : property c := by
  have hproperty := h c.toNat hc
  rwa [Char.ofNat_toNat] at hproperty

theorem mem_nameCharacters_of_isDigit {c : Char} (h : c.isDigit = true) : c ∈ nameCharacters := by
  have hlt : c.toNat < 58 := by
    simp [Char.isDigit, UInt32.le_iff_toNat_le] at h
    exact Nat.lt_succ_of_le h.2
  exact char_of_lt (fun c => c.isDigit = true → c ∈ nameCharacters) (by decide) hlt h

theorem mem_nameCharacters_of_isHexDigit {c : Char} (h : isHexDigit c = true)
    (hupper : c.toUpper = c) : c ∈ nameCharacters := by
  have hlt : c.toNat < 103 := by
    simp [isHexDigit, Char.isDigit, Char.le_def, UInt32.le_iff_toNat_le] at h
    rcases h with (h | h) | h
    · exact Nat.lt_of_le_of_lt h.2 (by decide)
    · exact Nat.lt_succ_of_le h.2
    · exact Nat.lt_of_le_of_lt h.2 (by decide)
  exact char_of_lt (fun c => isHexDigit c = true → c.toUpper = c → c ∈ nameCharacters)
    (by decide) hlt h hupper

theorem mem_nameCharacters_toDigits (n : Nat) : ∀ c ∈ Nat.toDigits 10 n, c ∈ nameCharacters :=
  fun _ hc => mem_nameCharacters_of_isDigit
    (Nat.isDigit_of_mem_toDigits (by decide) (by decide) hc)

theorem mem_nameCharacters_padded (width n : Nat) :
    ∀ c ∈ padded width n, c ∈ nameCharacters := by
  intro c hc
  rcases List.mem_append.mp hc with hzero | hdigit
  · rw [(List.mem_replicate.mp hzero).2]
    decide
  · exact mem_nameCharacters_toDigits n c hdigit

theorem mem_nameCharacters_printFloat (value : ℚ) :
    ∀ c ∈ printFloat value, c ∈ nameCharacters := by
  intro c hc
  unfold printFloat at hc
  rw [List.mem_append, List.mem_append, List.mem_cons] at hc
  rcases hc with (hsign | hdigit) | hpoint | hdigit
  · split at hsign
    · rw [List.mem_singleton.mp hsign]
      decide
    · cases hsign
  · exact mem_nameCharacters_toDigits _ c hdigit
  · rw [hpoint]
    decide
  · exact mem_nameCharacters_padded 6 _ c hdigit

theorem mem_nameCharacters_uuid (uuid : NSUUID) :
    ∀ c ∈ uuid.characters, c ∈ nameCharacters := by
  intro c hc
  obtain ⟨position, hposition, rfl⟩ := List.mem_iff_getElem.mp hc
  have hmem : (uuid.characters[position], position) ∈ uuid.characters.zipIdx :=
    List.mk_mem_zipIdx_iff_getElem?.mpr (List.getElem?_eq_getElem hposition)
  have hform := List.all_eq_true.mp uuid.form _ hmem
  unfold isUUIDCharacter at hform
  dsimp only at hform
  split at hform
  · rw [beq_iff_eq.mp hform]
    decide
  · rw [Bool.and_eq_true] at hform
    exact mem_nameCharacters_of_isHexDigit hform.1 (beq_iff_eq.mp hform.2)

def jsonExtension : List Char := ['.', 'j', 's', 'o', 'n']

/-- The clock, the counter of the file manager and a new identifier make a name. -/
def uniqueAscendingJsonName (timeIntervalSince1970 : ℚ) (currentFileCounter : Nat)
    (uuid : NSUUID) : JsonName where
  characters := printFloat timeIntervalSince1970 ++ '-' :: padded 5 currentFileCounter ++
    '-' :: uuid.characters ++ jsonExtension
  form := by
    have hdash : '-' ∈ nameCharacters := by decide
    have hextension : ∀ c ∈ jsonExtension, c ∈ nameCharacters := by
      simp only [jsonExtension, List.forall_mem_cons]
      exact ⟨by decide, by decide, by decide, by decide, by decide, by simp⟩
    simp only [List.forall_mem_append, List.forall_mem_cons]
    exact ⟨⟨⟨mem_nameCharacters_printFloat _, hdash, mem_nameCharacters_padded 5 _⟩, hdash,
      mem_nameCharacters_uuid uuid⟩, hextension⟩

/-! The order. -/

/-- What `localizedCaseInsensitiveCompare:` compares. -/
def JsonName.key (name : JsonName) : List Char := name.characters.map Char.toLower

theorem map_toLower_injective {texts texts' : List Char} (h : ∀ c ∈ texts, c ∈ nameCharacters)
    (h' : ∀ c ∈ texts', c ∈ nameCharacters)
    (heq : texts.map Char.toLower = texts'.map Char.toLower) : texts = texts' := by
  have hlower : (nameCharacters.map Char.toLower).Nodup := by decide
  induction texts generalizing texts' with
  | nil => exact (List.map_eq_nil_iff.mp heq.symm).symm
  | cons c texts ih =>
    cases texts' with
    | nil => cases heq
    | cons c' texts' =>
      rw [List.forall_mem_cons] at h h'
      rw [List.map_cons, List.map_cons, List.cons.injEq] at heq
      rw [List.inj_on_of_nodup_map hlower h.1 h'.1 heq.1, ih h.2 h'.2 heq.2]

theorem JsonName.key_injective : Function.Injective JsonName.key := by
  intro name other h
  have heq := map_toLower_injective name.form other.form h
  cases name
  cases heq
  rfl

instance : LinearOrder JsonName := LinearOrder.lift' JsonName.key JsonName.key_injective

/-! Names ascend. -/

theorem roundHalfEven_spec (value : ℚ) :
    value.floor.toNat ≤ roundHalfEven value ∧ roundHalfEven value ≤ value.floor.toNat + 1 := by
  unfold roundHalfEven
  dsimp only
  split <;> omega

/-- What `%f` shows of a time, in millionths of a second. -/
def millionths (date : ℚ) : Nat := roundHalfEven (date * 10 ^ 6)

theorem le_millionths {date : ℚ} (h : 10 ^ 9 ≤ date) : 10 ^ 15 ≤ millionths date := by
  have hfloor : (10 ^ 15 : Int) ≤ (date * 10 ^ 6).floor := by
    change (10 ^ 15 : Int) ≤ ⌊date * 10 ^ 6⌋
    apply Int.le_floor.mpr
    push_cast
    linarith
  have hspec := (roundHalfEven_spec (date * 10 ^ 6)).1
  unfold millionths
  omega

theorem toLower_of_isDigit {c : Char} (h : c.isDigit = true) : c.toLower = c := by
  have hlt : c.toNat < 58 := by
    simp [Char.isDigit, UInt32.le_iff_toNat_le] at h
    exact Nat.lt_succ_of_le h.2
  exact char_of_lt (fun c => c.isDigit = true → c.toLower = c) (by decide) hlt h

theorem map_toLower_padded (width n : Nat) :
    (padded width n).map Char.toLower = padded width n := by
  conv_rhs => rw [← List.map_id (padded width n)]
  apply List.map_congr_left
  intro c hc
  rcases List.mem_append.mp hc with hzero | hdigit
  · rw [(List.mem_replicate.mp hzero).2]
    decide
  · exact toLower_of_isDigit (Nat.isDigit_of_mem_toDigits (by decide) (by decide) hdigit)

/-- Ten digits, from September 2001 to November 2286. -/
theorem key_uniqueAscendingJsonName {date : ℚ} (hlow : 10 ^ 9 ≤ date)
    (counter : Nat) (uuid : NSUUID) (hhigh : millionths date < 10 ^ 16) :
    ∃ rest, (uniqueAscendingJsonName date counter uuid).key =
      padded 10 (millionths date / 10 ^ 6) ++ '.' :: (padded 6 (millionths date % 10 ^ 6) ++
        '-' :: (padded 5 counter ++ rest)) := by
  have hsign : ¬date < 0 := by linarith
  have hle := le_millionths hlow
  have hdigits : Nat.toDigits 10 (millionths date / 10 ^ 6) =
      padded 10 (millionths date / 10 ^ 6) := toDigits_eq_padded (by omega)
  have hfloat : printFloat date = padded 10 (millionths date / 10 ^ 6) ++
      '.' :: padded 6 (millionths date % 10 ^ 6) := by
    unfold printFloat
    rw [if_neg hsign, if_neg hsign, ← millionths]
    dsimp only
    rw [hdigits, List.nil_append]
  have hdot : Char.toLower '.' = '.' := by decide
  have hdash : Char.toLower '-' = '-' := by decide
  refine ⟨('-' :: uuid.characters ++ jsonExtension).map Char.toLower, ?_⟩
  simp only [JsonName.key, uniqueAscendingJsonName, hfloat, List.map_append, List.map_cons,
    map_toLower_padded, hdot, hdash, List.append_assoc, List.cons_append]

/-- The names ascend with the time and the counter. -/
theorem uniqueAscendingJsonName_lt {date date' : ℚ} {counter counter' : Nat}
    (uuid uuid' : NSUUID) (hlow : 10 ^ 9 ≤ date) (hlow' : 10 ^ 9 ≤ date')
    (hhigh : millionths date' < 10 ^ 16) (hcounter : counter' < 10 ^ 5)
    (h : millionths date < millionths date' ∨
      millionths date = millionths date' ∧ counter < counter') :
    uniqueAscendingJsonName date counter uuid < uniqueAscendingJsonName date' counter' uuid' := by
  have hwidth : (padded 10 (millionths date / 10 ^ 6)).length =
      (padded 10 (millionths date' / 10 ^ 6)).length := by
    rw [padded_length (by decide) (by omega), padded_length (by decide) (by omega)]
  have hwidth' : (padded 6 (millionths date % 10 ^ 6)).length =
      (padded 6 (millionths date' % 10 ^ 6)).length := by
    rw [padded_length (by decide) (by omega), padded_length (by decide) (by omega)]
  obtain ⟨rest, hkey⟩ := key_uniqueAscendingJsonName hlow counter uuid (by omega)
  obtain ⟨rest', hkey'⟩ := key_uniqueAscendingJsonName hlow' counter' uuid' hhigh
  change (uniqueAscendingJsonName date counter uuid).key <
    (uniqueAscendingJsonName date' counter' uuid').key
  rw [hkey, hkey']
  by_cases hseconds : millionths date / 10 ^ 6 < millionths date' / 10 ^ 6
  · exact append_lt_append hwidth (padded_lt_padded (by decide) hseconds (by omega)) _ _
  · have hsame : millionths date / 10 ^ 6 = millionths date' / 10 ^ 6 := by omega
    rw [hsame]
    apply List.append_left_lt
    refine List.cons_lt_cons_iff.mpr (Or.inr ⟨rfl, ?_⟩)
    rcases h with hless | ⟨heq, hless⟩
    · exact append_lt_append hwidth' (padded_lt_padded (by decide) (by omega) (by omega)) _ _
    · rw [heq]
      apply List.append_left_lt
      refine List.cons_lt_cons_iff.mpr (Or.inr ⟨rfl, ?_⟩)
      have hcounters : (padded 5 counter).length = (padded 5 counter').length := by
        rw [padded_length (by decide) (by omega), padded_length (by decide) hcounter]
      exact append_lt_append hcounters (padded_lt_padded (by decide) hless hcounter) _ _

end SentryCocoa.FileManager
