import SentryCocoa.CrashString

/-! The address that a string contains as a hexadecimal number. -/
namespace SentryCocoa.CrashString

abbrev Bytes := List UInt8

/-- What `g_hexConversion` has for a byte that is no digit. -/
def INV : Nat := 0xff

def hexConversion (c : UInt8) : Nat :=
  if '0'.toUInt8 ≤ c ∧ c ≤ '9'.toUInt8 then c.toNat - 0x30
  else if 'A'.toUInt8 ≤ c ∧ c ≤ 'F'.toUInt8 then c.toNat - 0x37
  else if 'a'.toUInt8 ≤ c ∧ c ≤ 'f'.toUInt8 then c.toNat - 0x57
  else INV

/-- The rest of a string from the first place on where another one stands. What is behind a NUL
is not searched. -/
def strnstr (needle : Bytes) : Bytes → Option Bytes
  | [] => none
  | c :: rest =>
    if c = 0 then none
    else if needle.isPrefixOf (c :: rest) then some (c :: rest)
    else strnstr needle rest

def hexPrefix : Bytes := ['0'.toUInt8, 'x'.toUInt8]

def digitLoop (accum : UInt64) : Bytes → UInt64
  | [] => accum
  | c :: rest =>
    if hexConversion c = INV then accum
    else digitLoop ((accum <<< 4) + UInt64.ofNat (hexConversion c)) rest

theorem length_strnstr {needle string found : Bytes} (h : strnstr needle string = some found) :
    found.length ≤ string.length := by
  induction string with
  | nil => cases h
  | cons c rest ih =>
    rw [strnstr] at h
    split at h
    · cases h
    · split at h
      · cases h
        exact Nat.le_refl _
      · exact (ih h).trans (Nat.le_succ _)

/-- What `current` points to, up to the end of the string. There is no answer if the byte
behind the end is read, and no value if the function returns false. -/
def searchLoop (current : Bytes) : Option (Option UInt64) :=
  match _hfound : strnstr hexPrefix current with
  | none => some none
  | some found =>
    match _hbehind : found.drop 2 with
    | [] => none
    | c :: rest =>
      -- Must have at least one valid digit after "0x".
      if hexConversion c = INV then searchLoop (c :: rest)
      else some (some (digitLoop 0 (c :: rest)))
termination_by current.length
decreasing_by
  have hle := length_strnstr _hfound
  have hlength := congrArg List.length _hbehind
  rw [List.length_drop, List.length_cons] at hlength
  rw [List.length_cons]
  omega

def extractHexValue (string : Bytes) : Option (Option UInt64) :=
  if string.length > 0 then searchLoop string else some none

/-! ## The numbers in a string -/

def isHexDigit (c : UInt8) : Bool := hexConversion c != INV

/-- A number starts here: "0x" and a digit. -/
def StartsNumber : Bytes → Prop
  | c₁ :: c₂ :: c₃ :: _ => c₁ = '0'.toUInt8 ∧ c₂ = 'x'.toUInt8 ∧ isHexDigit c₃ = true
  | _ => False

instance : DecidablePred StartsNumber := fun string =>
  match string with
  | [] => inferInstanceAs (Decidable False)
  | [_] => inferInstanceAs (Decidable False)
  | [_, _] => inferInstanceAs (Decidable False)
  | _ :: _ :: _ :: _ => inferInstanceAs (Decidable (_ ∧ _ ∧ _))

/-- The place of the first number of a string. -/
def FirstNumber (string : Bytes) (i : Nat) : Prop :=
  StartsNumber (string.drop i) ∧ ∀ j < i, ¬StartsNumber (string.drop j)

/-- The number that digits stand for. -/
def hexNumber (digits : Bytes) : Nat :=
  digits.foldl (fun value c => value * 16 + hexConversion c) 0

/-- The number at a place, with all its digits. -/
def numberAt (string : Bytes) (i : Nat) : Nat :=
  hexNumber ((string.drop (i + 2)).takeWhile isHexDigit)

theorem shift_add_ofNat (value digit : Nat) :
    (UInt64.ofNat value <<< 4) + UInt64.ofNat digit = UInt64.ofNat (value * 16 + digit) := by
  apply UInt64.toNat_inj.mp
  rw [UInt64.toNat_add, UInt64.toNat_shiftLeft, UInt64.toNat_ofNat', UInt64.toNat_ofNat',
    UInt64.toNat_ofNat', Nat.shiftLeft_eq]
  simp only [UInt64.reduceToNat, Nat.reduceMod, Nat.reducePow]
  omega

theorem digitLoop_eq (value : Nat) (string : Bytes) :
    digitLoop (UInt64.ofNat value) string = UInt64.ofNat ((string.takeWhile isHexDigit).foldl
      (fun value c => value * 16 + hexConversion c) value) := by
  induction string generalizing value with
  | nil => rfl
  | cons c rest ih =>
    rw [digitLoop]
    by_cases hdigit : hexConversion c = INV
    · have hstop : isHexDigit c = false := bne_eq_false_iff_eq.mpr hdigit
      rw [if_pos hdigit, List.takeWhile_cons, hstop]
      rfl
    · have hmore : isHexDigit c = true := bne_iff_ne.mpr hdigit
      rw [if_neg hdigit, shift_add_ofNat, ih, List.takeWhile_cons, hmore]
      rfl

/-! ## The search -/

/-- What is done with what was found. -/
def searchFound : Option Bytes → Option (Option UInt64)
  | none => some none
  | some (_ :: _ :: c :: rest) =>
    if isHexDigit c then some (some (digitLoop 0 (c :: rest))) else searchLoop (c :: rest)
  | some _ => none

theorem searchLoop_eq (current : Bytes) :
    searchLoop current = searchFound (strnstr hexPrefix current) := by
  rw [searchLoop]
  rcases strnstr hexPrefix current with _ | _ | ⟨c₁, _ | ⟨c₂, _ | ⟨c₃, rest⟩⟩⟩
  case some.cons.cons.cons =>
    rw [searchFound]
    unfold isHexDigit
    by_cases hdigit : hexConversion c₃ = INV
    · rw [if_neg (by rw [bne_iff_ne, not_not]; exact hdigit)]
      exact if_pos hdigit
    · rw [if_pos (bne_iff_ne.mpr hdigit)]
      exact if_neg hdigit
  all_goals rfl

theorem isPrefixOf_hexPrefix_iff (string : Bytes) :
    hexPrefix.isPrefixOf string = true ↔ ∃ rest, string = hexPrefix ++ rest := by
  rw [List.isPrefixOf_iff_prefix]
  exact ⟨fun ⟨rest, h⟩ => ⟨rest, h.symm⟩, fun ⟨rest, h⟩ => ⟨rest, h.symm⟩⟩

theorem strnstr_hexPrefix_append (rest : Bytes) :
    strnstr hexPrefix (hexPrefix ++ rest) = some (hexPrefix ++ rest) := by
  have hprefix := (isPrefixOf_hexPrefix_iff (hexPrefix ++ rest)).mpr ⟨rest, rfl⟩
  exact (if_neg (by decide)).trans (if_pos hprefix)

theorem strnstr_cons {c : UInt8} {rest : Bytes} (hnul : c ≠ 0)
    (hstart : ¬∃ rest', c :: rest = hexPrefix ++ rest') :
    strnstr hexPrefix (c :: rest) = strnstr hexPrefix rest := by
  rw [strnstr, if_neg hnul, if_neg fun h => hstart ((isPrefixOf_hexPrefix_iff _).mp h)]

theorem startsNumber_iff (string : Bytes) :
    StartsNumber string ↔ ∃ c rest, string = hexPrefix ++ c :: rest ∧ isHexDigit c = true := by
  rcases string with _ | ⟨c₁, _ | ⟨c₂, _ | ⟨c₃, rest⟩⟩⟩
  case cons.cons.cons =>
    constructor
    · rintro ⟨rfl, rfl, hdigit⟩
      exact ⟨c₃, rest, rfl, hdigit⟩
    · rintro ⟨c, rest', heq, hdigit⟩
      cases heq
      exact ⟨rfl, rfl, hdigit⟩
  all_goals
    constructor
    · exact False.elim
    · rintro ⟨c, rest', heq, -⟩
      cases heq

theorem searchLoop_of_nul (rest : Bytes) : searchLoop (0 :: rest) = some none := by
  rw [searchLoop_eq]
  rfl

theorem searchLoop_hexPrefix : searchLoop hexPrefix = none := by
  rw [searchLoop_eq]
  rfl

theorem searchLoop_of_startsNumber {string : Bytes} (h : StartsNumber string) :
    searchLoop string = some (some (UInt64.ofNat (numberAt string 0))) := by
  obtain ⟨c, rest, rfl, hdigit⟩ := (startsNumber_iff _).mp h
  rw [searchLoop_eq, strnstr_hexPrefix_append]
  have hvalue := digitLoop_eq 0 (c :: rest)
  exact (if_pos hdigit).trans (congrArg (fun value => some (some value)) hvalue)

/-- Nothing is missed between two places that are found. -/
theorem searchLoop_cons {c : UInt8} {rest : Bytes} (hnul : c ≠ 0)
    (hstart : ¬StartsNumber (c :: rest)) (hend : c :: rest ≠ hexPrefix) :
    searchLoop (c :: rest) = searchLoop rest := by
  by_cases hprefix : ∃ rest', c :: rest = hexPrefix ++ rest'
  · obtain ⟨rest', heq⟩ := hprefix
    rw [heq] at hstart hend ⊢
    have htail : rest = 'x'.toUInt8 :: rest' := List.tail_eq_of_cons_eq heq
    rcases rest' with _ | ⟨d, rest'⟩
    · exact absurd rfl hend
    · have hdigit : ¬isHexDigit d = true := by
        intro hdigit
        exact hstart ((startsNumber_iff _).mpr ⟨d, rest', rfl, hdigit⟩)
      have hx : strnstr hexPrefix ('x'.toUInt8 :: d :: rest') = strnstr hexPrefix (d :: rest') := by
        apply strnstr_cons (by decide)
        rintro ⟨rest'', h⟩
        exact absurd (List.head_eq_of_cons_eq h) (by decide)
      rw [searchLoop_eq, strnstr_hexPrefix_append, htail, searchLoop_eq (_ :: _), hx,
        ← searchLoop_eq]
      exact if_neg hdigit
  · rw [searchLoop_eq, strnstr_cons hnul hprefix, ← searchLoop_eq]

/-- What the search of a string ends with: the first number of it, false, or the byte behind the
end. -/
inductive Searched (string : Bytes) : Option (Option UInt64) → Prop
  | found {i : Nat} : FirstNumber string i → 0 ∉ string.take i →
      Searched string (some (some (UInt64.ofNat (numberAt string i))))
  | notFound : (∀ i, StartsNumber (string.drop i) → 0 ∈ string.take i) →
      0 ∈ string ∨ ¬hexPrefix <:+ string → Searched string (some none)
  | outside : (∀ i, ¬StartsNumber (string.drop i)) → 0 ∉ string → hexPrefix <:+ string →
      Searched string none

theorem Searched.cons {c : UInt8} {rest : Bytes} {result : Option (Option UInt64)}
    (hnul : c ≠ 0) (hstart : ¬StartsNumber (c :: rest)) (hend : c :: rest ≠ hexPrefix)
    (h : Searched rest result) : Searched (c :: rest) result := by
  cases h with
  | @found i hfirst hfront =>
    have hplace : numberAt rest i = numberAt (c :: rest) (i + 1) := rfl
    rw [hplace]
    refine .found ⟨hfirst.1, ?_⟩ ?_
    · intro j hj
      cases j with
      | zero => exact hstart
      | succ j => exact hfirst.2 j (Nat.lt_of_succ_lt_succ hj)
    · rw [List.take_succ_cons, List.mem_cons]
      rintro (h | h)
      · exact hnul h.symm
      · exact hfront h
  | notFound hnone hbehind =>
    refine .notFound ?_ ?_
    · intro i hi
      cases i with
      | zero => exact absurd hi hstart
      | succ i => exact List.mem_cons_of_mem _ (hnone i hi)
    · refine hbehind.imp (List.mem_cons_of_mem _) fun hsuffix h => ?_
      rcases List.suffix_cons_iff.mp h with heq | h
      · exact hend heq.symm
      · exact hsuffix h
  | outside hnone hzero hsuffix =>
    refine .outside ?_ ?_ (hsuffix.trans (List.suffix_cons _ _))
    · intro i
      cases i with
      | zero => exact hstart
      | succ i => exact hnone i
    · rw [List.mem_cons]
      rintro (h | h)
      · exact hnul h.symm
      · exact hzero h

theorem searchLoop_searched (string : Bytes) : Searched string (searchLoop string) := by
  induction string with
  | nil =>
    rw [searchLoop_eq]
    refine .notFound (fun i hi => ?_) (Or.inr (by decide))
    rw [List.drop_nil] at hi
    cases hi
  | cons c rest ih =>
    by_cases hnul : c = 0
    · rw [hnul, searchLoop_of_nul]
      refine .notFound (fun i hi => ?_) (Or.inl List.mem_cons_self)
      cases i with
      | zero =>
        obtain ⟨c', rest', heq, -⟩ := (startsNumber_iff _).mp hi
        exact absurd (List.head_eq_of_cons_eq heq) (by decide)
      | succ i => exact List.mem_cons_self
    · by_cases hstart : StartsNumber (c :: rest)
      · rw [searchLoop_of_startsNumber hstart]
        exact .found ⟨hstart, fun j hj => absurd hj (Nat.not_lt_zero j)⟩ List.not_mem_nil
      · by_cases hend : c :: rest = hexPrefix
        · rw [hend, searchLoop_hexPrefix]
          refine .outside (fun i hi => ?_) (by decide) (List.suffix_refl _)
          obtain ⟨c', rest', heq, -⟩ := (startsNumber_iff _).mp hi
          have hlength := congrArg List.length heq
          rw [List.length_drop, List.length_append, List.length_cons] at hlength
          omega
        · rw [searchLoop_cons hnul hstart hend]
          exact ih.cons hnul hstart hend

theorem extractHexValue_eq (string : Bytes) : extractHexValue string = searchLoop string := by
  cases string with
  | nil =>
    rw [searchLoop_eq]
    rfl
  | cons c rest => exact if_pos (Nat.succ_pos _)

/-! ## When the number is found -/

/-- No byte outside of the string is read, and the result is the first number of the string, if
it has one. -/
def Extracted (string : Bytes) : Prop :=
  ∃ result, extractHexValue string = some result ∧
    (result.isSome = true ↔ ∃ i, StartsNumber (string.drop i)) ∧
    ∀ i, FirstNumber string i → result = some (UInt64.ofNat (numberAt string i))

theorem FirstNumber.eq {string : Bytes} {i j : Nat} (hi : FirstNumber string i)
    (hj : FirstNumber string j) : i = j := by
  rcases Nat.lt_trichotomy i j with hlt | rfl | hgt
  · exact absurd hi.1 (hj.2 i hlt)
  · rfl
  · exact absurd hj.1 (hi.2 j hgt)

/-- There is a number, and no NUL in front of the first one, or there is none, and the string
has a NUL or does not end in "0x". -/
theorem extracted_iff (string : Bytes) :
    Extracted string ↔
      (∃ i, FirstNumber string i ∧ 0 ∉ string.take i) ∨
        (∀ i, ¬StartsNumber (string.drop i)) ∧ (0 ∈ string ∨ ¬hexPrefix <:+ string) := by
  unfold Extracted
  rw [extractHexValue_eq]
  have hsearched := searchLoop_searched string
  generalize searchLoop string = result at hsearched ⊢
  cases hsearched with
  | @found i hfirst hfront =>
    refine ⟨fun _ => Or.inl ⟨i, hfirst, hfront⟩, fun _ => ⟨_, rfl, ?_, ?_⟩⟩
    · exact ⟨fun _ => ⟨i, hfirst.1⟩, fun _ => rfl⟩
    · intro j hj
      rw [hj.eq hfirst]
  | notFound hnone hbehind =>
    constructor
    · rintro ⟨_, heq, hnumber, -⟩
      cases heq
      refine Or.inr ⟨fun i hi => ?_, hbehind⟩
      exact absurd (hnumber.mpr ⟨i, hi⟩) (by decide)
    · rintro (⟨i, hfirst, hfront⟩ | ⟨hnumber, -⟩)
      · exact absurd (hnone i hfirst.1) hfront
      · refine ⟨none, rfl, ⟨fun h => absurd h (by decide), ?_⟩, fun i hi => ?_⟩
        · rintro ⟨i, hi⟩
          exact absurd hi (hnumber i)
        · exact absurd hi.1 (hnumber i)
  | outside hnone hzero hsuffix =>
    constructor
    · rintro ⟨_, h, -⟩
      cases h
    · rintro (⟨i, hfirst, -⟩ | ⟨-, hmem | hno⟩)
      · exact absurd hfirst.1 (hnone i)
      · exact absurd hmem hzero
      · exact absurd hsuffix hno

/-- The byte behind the end is read. -/
theorem hexPrefix_not_extracted : ¬Extracted ['0'.toUInt8, 'x'.toUInt8] := by
  unfold Extracted
  rw [extractHexValue_eq]
  rintro ⟨result, hresult, -⟩
  rw [show searchLoop ['0'.toUInt8, 'x'.toUInt8] = none from searchLoop_hexPrefix] at hresult
  cases hresult

end SentryCocoa.CrashString
