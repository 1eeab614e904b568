import Mathlib.Data.List.Basic

/-! Percent encoding of text by its UTF-8 bytes. Characters of the set that are in ASCII stand
for themselves; the others are escaped byte by byte. -/
namespace SentryCocoa.Library.PercentEncoding

def hexDigit (n : Nat) : Char := Char.ofNat (if n < 10 then 48 + n else 55 + n)

def digitValue (c : Char) : Option Nat :=
  if '0' ≤ c ∧ c ≤ '9' then some (c.toNat - 48)
  else if 'A' ≤ c ∧ c ≤ 'F' then some (c.toNat - 55)
  else if 'a' ≤ c ∧ c ≤ 'f' then some (c.toNat - 87)
  else none

def escape (byte : UInt8) : List Char :=
  ['%', hexDigit (byte.toNat / 16), hexDigit (byte.toNat % 16)]

/-- Outside of ASCII the set does not count. -/
def stands (allowed : Char → Bool) (c : Char) : Bool := c.toNat < 128 && allowed c

def encodeChar (allowed : Char → Bool) (c : Char) : List Char :=
  if stands allowed c then [c] else (String.utf8EncodeChar c).flatMap escape

def encode (allowed : Char → Bool) (text : List Char) : List Char :=
  text.flatMap (encodeChar allowed)

/-- The bytes that a text stands for; a percent sign needs two digits. -/
def bytes : List Char → Option (List UInt8)
  | '%' :: first :: second :: rest => do
    let high ← digitValue first
    let low ← digitValue second
    return UInt8.ofNat (high * 16 + low) :: (← bytes rest)
  | c :: rest => if c = '%' then none else (String.utf8EncodeChar c ++ ·) <$> bytes rest
  | [] => some []

/-- Bytes that are not UTF-8 have no text. -/
def decode (text : List Char) : Option (List Char) :=
  (bytes text).bind fun bytes => (bytes.toByteArray.utf8Decode?).map Array.toList

variable {allowed : Char → Bool}

theorem digitValue_hexDigit : ∀ n < 16, digitValue (hexDigit n) = some n := by
  decide

theorem bytes_cons {c : Char} (h : c ≠ '%') (rest : List Char) :
    bytes (c :: rest) = (String.utf8EncodeChar c ++ ·) <$> bytes rest := by
  rw [bytes.eq_def]
  split
  · rename_i heq
    cases heq
    exact absurd rfl h
  · rename_i heq
    cases heq
    rw [if_neg h]
  · rename_i heq
    cases heq

theorem bytes_escape (byte : UInt8) (rest : List Char) :
    bytes (escape byte ++ rest) = (byte :: ·) <$> bytes rest := by
  have hlt := byte.toNat_lt
  have hhigh := digitValue_hexDigit (byte.toNat / 16) (by omega)
  have hlow := digitValue_hexDigit (byte.toNat % 16) (by omega)
  have hbyte : UInt8.ofNat (byte.toNat / 16 * 16 + byte.toNat % 16) = byte := by
    rw [Nat.div_add_mod', UInt8.ofNat_toNat]
  unfold escape
  rw [List.cons_append, List.cons_append, List.cons_append, List.nil_append, bytes.eq_1, hhigh,
    hlow]
  simp only [Option.bind_eq_bind, Option.bind_some, hbyte]
  cases bytes rest <;> rfl

theorem bytes_flatMap_escape (escaped : List UInt8) (rest : List Char) :
    bytes (escaped.flatMap escape ++ rest) = (escaped ++ ·) <$> bytes rest := by
  induction escaped with
  | nil =>
    rw [List.flatMap_nil, List.nil_append]
    cases bytes rest <;> rfl
  | cons byte escaped ih =>
    rw [List.flatMap_cons, List.append_assoc, bytes_escape, ih]
    cases bytes rest <;> rfl

theorem bytes_encodeChar (hpercent : allowed '%' = false) (c : Char) (rest : List Char) :
    bytes (encodeChar allowed c ++ rest) = (String.utf8EncodeChar c ++ ·) <$> bytes rest := by
  unfold encodeChar
  split
  · rename_i hstands
    refine bytes_cons (fun h => ?_) rest
    rw [h, stands, hpercent, Bool.and_false] at hstands
    cases hstands
  · exact bytes_flatMap_escape _ rest

theorem bytes_encode (hpercent : allowed '%' = false) (text : List Char) :
    bytes (encode allowed text) = some (text.flatMap String.utf8EncodeChar) := by
  induction text with
  | nil => rfl
  | cons c text ih =>
    rw [encode, List.flatMap_cons, bytes_encodeChar hpercent]
    unfold encode at ih
    rw [ih]
    rfl

/-- What was encoded is read back, whatever the set is. -/
theorem decode_encode_text (hpercent : allowed '%' = false) (text : List Char) :
    decode (encode allowed text) = some text := by
  unfold decode
  rw [bytes_encode hpercent, Option.bind_some]
  change (text.utf8Encode.utf8Decode?).map Array.toList = some text
  rw [List.utf8Decode?_utf8Encode]
  rfl

theorem length_escape_utf8 (c : Char) :
    1 < ((String.utf8EncodeChar c).flatMap escape).length := by
  have hne := String.utf8EncodeChar_ne_nil (c := c)
  cases hbytes : String.utf8EncodeChar c with
  | nil => exact absurd hbytes hne
  | cons byte rest =>
    rw [List.flatMap_cons, List.length_append]
    have hlength : (escape byte).length = 3 := rfl
    omega

/-- An escape makes a text longer. -/
theorem length_encode (allowed : Char → Bool) (text : List Char) :
    text.length ≤ (encode allowed text).length ∧
      ((encode allowed text).length = text.length → ∀ c ∈ text, stands allowed c = true) := by
  induction text with
  | nil => exact ⟨Nat.le_refl _, fun _ c hc => absurd hc List.not_mem_nil⟩
  | cons c text ih =>
    have hcons : (encode allowed (c :: text)).length =
        (encodeChar allowed c).length + (encode allowed text).length := by
      rw [encode, List.flatMap_cons, List.length_append]
      rfl
    rw [hcons, List.length_cons]
    by_cases hstands : stands allowed c = true
    · have hone : (encodeChar allowed c).length = 1 := by
        rw [encodeChar, if_pos hstands]
        rfl
      refine ⟨by omega, fun hlength => ?_⟩
      exact List.forall_mem_cons.mpr ⟨hstands, ih.2 (by omega)⟩
    · have hmore : 1 < (encodeChar allowed c).length := by
        rw [encodeChar, if_neg hstands]
        exact length_escape_utf8 c
      exact ⟨by omega, fun hlength => by omega⟩

theorem encode_eq_self {text : List Char} (h : ∀ c ∈ text, stands allowed c = true) :
    encode allowed text = text := by
  induction text with
  | nil => rfl
  | cons c text ih =>
    have hrest := ih fun c' hc' => h c' (List.mem_cons_of_mem c hc')
    unfold encode at hrest
    rw [encode, List.flatMap_cons, hrest, encodeChar, if_pos (h c List.mem_cons_self)]
    rfl

theorem encode_eq_self_iff {text : List Char} :
    encode allowed text = text ↔ ∀ c ∈ text, stands allowed c = true :=
  ⟨fun h => (length_encode allowed text).2 (congrArg List.length h), encode_eq_self⟩

theorem encode_append (allowed : Char → Bool) (text text' : List Char) :
    encode allowed (text ++ text') = encode allowed text ++ encode allowed text' :=
  List.flatMap_append

theorem encode_eq_nil {text : List Char} : encode allowed text = [] ↔ text = [] := by
  constructor
  · intro h
    have hlength := (length_encode allowed text).1
    rw [h] at hlength
    exact List.eq_nil_of_length_eq_zero (Nat.le_zero.mp hlength)
  · rintro rfl
    rfl

theorem hexDigit_ne {c : Char} (h : digitValue c = none) : ∀ n < 16, hexDigit n ≠ c := by
  intro n hn heq
  have hvalue := digitValue_hexDigit n hn
  rw [heq, h] at hvalue
  cases hvalue

/-- A separator that is neither in the set nor a digit is escaped. -/
theorem notMem_encode {separator : Char} (hallowed : allowed separator = false)
    (hpercent : separator ≠ '%') (hdigit : digitValue separator = none) (text : List Char) :
    separator ∉ encode allowed text := by
  intro hmem
  obtain ⟨c, -, hc⟩ := List.mem_flatMap.mp hmem
  unfold encodeChar at hc
  split at hc
  · rename_i hstands
    rw [← List.mem_singleton.mp hc, stands, hallowed, Bool.and_false] at hstands
    cases hstands
  · obtain ⟨byte, -, hbyte⟩ := List.mem_flatMap.mp hc
    have hlt := byte.toNat_lt
    have hhigh := hexDigit_ne hdigit (byte.toNat / 16) (by omega)
    have hlow := hexDigit_ne hdigit (byte.toNat % 16) (by omega)
    unfold escape at hbyte
    simp only [List.mem_cons, List.not_mem_nil, or_false] at hbyte
    rcases hbyte with h | h | h
    · exact hpercent h
    · exact hhigh h.symm
    · exact hlow h.symm

end SentryCocoa.Library.PercentEncoding
