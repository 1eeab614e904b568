import Mathlib.Data.Nat.Bitwise

/-! Characters as the bytes of UTF-8 and as the code units of UTF-16. The encoding is also
written for numbers that are no characters, because an encoder may be given one. -/
namespace SentryCocoa.Library.Unicode

theorem forall_byte {p : UInt8 → Prop} (h : ∀ n < 256, p (UInt8.ofNat n)) (c : UInt8) : p c := by
  rw [← UInt8.ofNat_toNat (x := c)]
  exact h c.toNat c.toNat_lt

def utf8 (text : List Char) : List UInt8 := text.flatMap String.utf8EncodeChar

/-- The bytes for a number below 0x110000, the surrogates among them. -/
def encodePoint (point : Nat) : List UInt8 :=
  if point ≤ 0x7F then [UInt8.ofNat point]
  else if point ≤ 0x7FF then
    [UInt8.ofNat (point / 64 % 0x20 + 0xC0), UInt8.ofNat (point % 0x40 + 0x80)]
  else if point ≤ 0xFFFF then
    [UInt8.ofNat (point / 4096 % 0x10 + 0xE0), UInt8.ofNat (point / 64 % 0x40 + 0x80),
      UInt8.ofNat (point % 0x40 + 0x80)]
  else
    [UInt8.ofNat (point / 262144 % 0x08 + 0xF0), UInt8.ofNat (point / 4096 % 0x40 + 0x80),
      UInt8.ofNat (point / 64 % 0x40 + 0x80), UInt8.ofNat (point % 0x40 + 0x80)]

theorem utf8EncodeChar_eq (c : Char) : String.utf8EncodeChar c = encodePoint c.toNat := rfl

theorem utf8_cons (c : Char) (text : List Char) :
    utf8 (c :: text) = encodePoint c.toNat ++ utf8 text := by
  unfold utf8
  rw [List.flatMap_cons, utf8EncodeChar_eq]

theorem utf8_injective : Function.Injective utf8 := by
  intro text text' h
  have hencode : text.utf8Encode = text'.utf8Encode := by
    unfold List.utf8Encode
    exact congrArg List.toByteArray h
  have hstring : String.ofList text = String.ofList text' := by
    apply String.toByteArray_inj.mp
    rw [String.toByteArray_ofList, String.toByteArray_ofList, hencode]
  rw [← String.toList_ofList (l := text), hstring, String.toList_ofList]

theorem toNat_ofNat_add {a b : Nat} (h : a + b < 256) : (UInt8.ofNat (a + b)).toNat = a + b := by
  rw [UInt8.toNat_ofNat']
  omega

/-- No byte of a character that is not ASCII is ASCII. -/
theorem high_of_mem_encodePoint {point : Nat} (hpoint : 0x80 ≤ point) {byte : UInt8}
    (h : byte ∈ encodePoint point) : 0x80 ≤ byte.toNat := by
  unfold encodePoint at h
  rw [if_neg (by omega)] at h
  split at h
  · simp only [List.mem_cons, List.not_mem_nil, or_false] at h
    rcases h with h | h <;> rw [h, toNat_ofNat_add (by omega)] <;> omega
  · split at h
    · simp only [List.mem_cons, List.not_mem_nil, or_false] at h
      rcases h with h | h | h <;> rw [h, toNat_ofNat_add (by omega)] <;> omega
    · simp only [List.mem_cons, List.not_mem_nil, or_false] at h
      rcases h with h | h | h | h <;> rw [h, toNat_ofNat_add (by omega)] <;> omega

/-- The first two bytes tell a number behind the basic plane from every other whose upper
bits are not the same. -/
theorem encodePoint_append_ne {point other : Nat} (hpoint : 0xFFFF < point)
    (hmax : point ≤ 0x10FFFF) (hother : other ≤ 0x10FFFF) (h : other / 4096 ≠ point / 4096)
    (rest rest' : List UInt8) : encodePoint other ++ rest ≠ encodePoint point ++ rest' := by
  intro heq
  have hfour : encodePoint point = [UInt8.ofNat (point / 262144 % 0x08 + 0xF0),
      UInt8.ofNat (point / 4096 % 0x40 + 0x80), UInt8.ofNat (point / 64 % 0x40 + 0x80),
      UInt8.ofNat (point % 0x40 + 0x80)] := by
    unfold encodePoint
    rw [if_neg (by omega), if_neg (by omega), if_neg (by omega)]
  have hfirst (x : Nat) (hx : x < 256) {more more' : List UInt8}
      (hcons : UInt8.ofNat x :: more =
        UInt8.ofNat (point / 262144 % 0x08 + 0xF0) :: more') :
      x = point / 262144 % 0x08 + 0xF0 := by
    have hbyte := congrArg UInt8.toNat (List.head_eq_of_cons_eq hcons)
    rw [UInt8.toNat_ofNat', toNat_ofNat_add (by omega)] at hbyte
    omega
  rw [hfour] at heq
  unfold encodePoint at heq
  split at heq
  · have := hfirst _ (by omega) heq
    omega
  · split at heq
    · have := hfirst _ (by omega) heq
      omega
    · split at heq
      · have := hfirst _ (by omega) heq
        omega
      · have hhead := hfirst _ (by omega) heq
        have hsecond := congrArg UInt8.toNat
          (List.head_eq_of_cons_eq (List.tail_eq_of_cons_eq heq))
        rw [toNat_ofNat_add (by omega), toNat_ofNat_add (by omega)] at hsecond
        omega

/-! Surrogates. -/

def IsLead (codeUnit : Nat) : Prop := 0xD800 ≤ codeUnit ∧ codeUnit ≤ 0xDBFF

def IsTrail (codeUnit : Nat) : Prop := 0xDC00 ≤ codeUnit ∧ codeUnit ≤ 0xDFFF

instance : DecidablePred IsLead := fun _ => inferInstanceAs (Decidable (_ ∧ _))

instance : DecidablePred IsTrail := fun _ => inferInstanceAs (Decidable (_ ∧ _))

def pairPoint (lead trail : Nat) : Nat := 0x10000 + (lead - 0xD800) * 0x400 + (trail - 0xDC00)

/-- The character that a code unit stands for without another one. -/
def unitChar (codeUnit : Nat) : Char := Char.ofNat codeUnit

def pairChar (lead trail : Nat) : Char := Char.ofNat (pairPoint lead trail)

theorem toNat_ofNat_of_valid {point : Nat} (h : point.isValidChar) :
    (Char.ofNat point).toNat = point := by
  rw [Char.ofNat, dif_pos h]
  rfl

theorem toNat_unitChar {codeUnit : Nat} (hmax : codeUnit ≤ 0xFFFF) (hlead : ¬IsLead codeUnit)
    (htrail : ¬IsTrail codeUnit) : (unitChar codeUnit).toNat = codeUnit := by
  unfold IsLead at hlead
  unfold IsTrail at htrail
  apply toNat_ofNat_of_valid
  unfold Nat.isValidChar
  omega

theorem toNat_pairChar {lead trail : Nat} (hlead : IsLead lead) (htrail : IsTrail trail) :
    (pairChar lead trail).toNat = pairPoint lead trail := by
  unfold IsLead at hlead
  unfold IsTrail at htrail
  apply toNat_ofNat_of_valid
  unfold Nat.isValidChar pairPoint
  omega

end SentryCocoa.Library.Unicode
