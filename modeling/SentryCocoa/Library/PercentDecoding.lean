import SentryCocoa.Library.PercentEncoding
import SentryCocoa.Library.Unicode

/-! Decoding of percent-encoded text part by part. The bytes of a part may be no UTF-8, and then
nothing that holds the part can be decoded; at an ASCII character that stands for itself a text
can be taken apart. -/
namespace SentryCocoa.Library.PercentEncoding
open SentryCocoa.Library.Unicode

theorem utf8_append (text text' : List Char) : utf8 (text ++ text') = utf8 text ++ utf8 text' :=
  List.flatMap_append

theorem utf8EncodeChar_ascii {c : Char} (hc : c.toNat < 128) :
    String.utf8EncodeChar c = [UInt8.ofNat c.toNat] := by
  rw [utf8EncodeChar_eq, encodePoint, if_pos (by omega)]

/-- An ASCII byte in UTF-8 is a character of its own. -/
theorem utf8_eq_append_ascii {c : Char} (hc : c.toNat < 128) {text : List Char}
    {first second : List UInt8} (h : utf8 text = first ++ UInt8.ofNat c.toNat :: second) :
    ∃ before after, text = before ++ c :: after ∧ first = utf8 before ∧ second = utf8 after := by
  induction text generalizing first with
  | nil => simp [utf8] at h
  | cons d text ih =>
    rw [utf8_cons] at h
    rcases List.append_eq_append_iff.1 h with ⟨rest, rfl, hrest⟩ | ⟨rest, hchar, hrest⟩
    · obtain ⟨before, after, rfl, rfl, rfl⟩ := ih hrest
      exact ⟨d :: before, after, rfl, (utf8_cons d before).symm, rfl⟩
    · cases rest with
      | nil =>
        obtain ⟨before, after, rfl, hbefore, rfl⟩ := @ih [] hrest.symm
        refine ⟨d :: before, after, rfl, ?_, rfl⟩
        rw [utf8_cons, ← hbefore, hchar, List.append_nil, List.append_nil]
      | cons byte rest =>
        obtain ⟨rfl, hsecond⟩ := List.cons.inj hrest
        have hd : d.toNat < 128 := by
          by_contra hlarge
          have hhigh := high_of_mem_encodePoint (Nat.le_of_not_lt hlarge)
            (hchar ▸ List.mem_append_right first List.mem_cons_self)
          rw [UInt8.toNat_ofNat'] at hhigh
          omega
        rw [encodePoint, if_pos (by omega)] at hchar
        cases first with
        | nil =>
          obtain ⟨hbyte, hnil⟩ := List.cons.inj hchar
          have hcode := congrArg UInt8.toNat hbyte
          rw [UInt8.toNat_ofNat', UInt8.toNat_ofNat'] at hcode
          have hsame : d = c := Char.toNat_inj.1 (by omega)
          rw [hsecond, ← hnil, hsame]
          exact ⟨[], text, rfl, rfl, rfl⟩
        | cons other first =>
          have hlength := congrArg List.length hchar
          simp at hlength

theorem decode_eq_some_iff {text decoded : List Char} :
    decode text = some decoded ↔ bytes text = some (utf8 decoded) := by
  unfold decode
  constructor
  · intro h
    obtain ⟨encoded, hencoded, hdecoded⟩ := Option.bind_eq_some_iff.1 h
    obtain ⟨chars, hchars, rfl⟩ := Option.map_eq_some_iff.1 hdecoded
    have hsome : encoded.toByteArray.utf8Decode?.isSome := by
      rw [hchars]
      rfl
    have hget : encoded.toByteArray.utf8Decode?.get hsome = chars := Option.get_of_eq_some _ hchars
    have hbytes : chars.toList.utf8Encode = encoded.toByteArray := by
      rw [← hget]
      exact ByteArray.utf8Encode_get_utf8Decode?
    rw [hencoded, utf8]
    have hdata := congrArg (fun array : ByteArray => array.data.toList) hbytes
    simpa [List.utf8Encode] using hdata.symm
  · intro h
    rw [h, Option.bind_some]
    change (decoded.utf8Encode.utf8Decode?).map Array.toList = some decoded
    rw [List.utf8Decode?_utf8Encode]
    rfl

/-- A part that ends with its last escape does not change how the rest is read. -/
theorem bytes_append {text : List Char} {encoded : List UInt8} (h : bytes text = some encoded)
    (rest : List Char) : bytes (text ++ rest) = (encoded ++ ·) <$> bytes rest := by
  induction text using bytes.induct generalizing encoded with
  | case1 first second text ih =>
    rw [bytes.eq_1] at h
    obtain ⟨high, hhigh, h⟩ := Option.bind_eq_some_iff.1 h
    obtain ⟨low, hlow, h⟩ := Option.bind_eq_some_iff.1 h
    obtain ⟨tail, htail, h⟩ := Option.bind_eq_some_iff.1 h
    cases h
    rw [List.cons_append, List.cons_append, List.cons_append, bytes.eq_1, hhigh, hlow, ih htail]
    cases bytes rest <;> rfl
  | case2 text hescape =>
    rw [bytes.eq_2 _ _ hescape, if_pos rfl] at h
    cases h
  | case3 c text hescape hpercent ih =>
    rw [bytes_cons hpercent] at h
    obtain ⟨tail, htail, rfl⟩ := Option.map_eq_some_iff.1 h
    rw [List.cons_append, bytes_cons hpercent, ih htail]
    cases bytes rest with
    | none => rfl
    | some encoded => exact congrArg some (List.append_assoc _ tail encoded).symm
  | case4 =>
    cases h
    rw [List.nil_append]
    cases bytes rest <;> rfl

/-- A text is decoded in two parts at an ASCII character that stands for itself. -/
theorem decode_append_cons {first second decoded : List Char} {c : Char}
    (hfirst : (bytes first).isSome) (hc : c.toNat < 128) (hpercent : c ≠ '%') :
    decode (first ++ c :: second) = some decoded ↔ ∃ before after, decode first = some before ∧
      decode second = some after ∧ decoded = before ++ c :: after := by
  obtain ⟨encoded, hencoded⟩ := Option.isSome_iff_exists.1 hfirst
  rw [decode_eq_some_iff, bytes_append hencoded, bytes_cons hpercent, utf8EncodeChar_ascii hc]
  constructor
  · intro h
    cases hsecond : bytes second with
    | none =>
      rw [hsecond] at h
      cases h
    | some rest =>
      rw [hsecond] at h
      obtain ⟨before, after, rfl, hbefore, hafter⟩ :=
        utf8_eq_append_ascii hc (Option.some.inj h).symm
      refine ⟨before, after, ?_, ?_, rfl⟩
      · rw [decode_eq_some_iff, hencoded, hbefore]
      · rw [decode_eq_some_iff, hsecond]
        exact congrArg some hafter
  · rintro ⟨before, after, hbefore, hafter, rfl⟩
    rw [decode_eq_some_iff] at hbefore hafter
    rw [hafter, utf8_append, utf8_cons, ← utf8EncodeChar_eq, utf8EncodeChar_ascii hc]
    rw [hencoded] at hbefore
    rw [Option.some.inj hbefore]
    rfl

/-! ## Parts -/

def Decodable (text : List Char) : Prop := (decode text).isSome

/-- A character that stands for itself and is a byte of its own. -/
def IsPlain (c : Char) : Prop := c.toNat < 128 ∧ c ≠ '%'

theorem decodable_nil : Decodable [] := rfl

theorem decodable_append_cons {first second : List Char} {c : Char}
    (hfirst : (bytes first).isSome) (hc : IsPlain c) :
    Decodable (first ++ c :: second) ↔ Decodable first ∧ Decodable second := by
  unfold Decodable
  rw [Option.isSome_iff_exists, Option.isSome_iff_exists, Option.isSome_iff_exists]
  constructor
  · rintro ⟨decoded, h⟩
    obtain ⟨before, after, hbefore, hafter, -⟩ :=
      (decode_append_cons hfirst hc.1 hc.2).1 h
    exact ⟨⟨before, hbefore⟩, after, hafter⟩
  · rintro ⟨⟨before, hbefore⟩, after, hafter⟩
    exact ⟨_, (decode_append_cons hfirst hc.1 hc.2).2 ⟨before, after, hbefore, hafter, rfl⟩⟩

theorem decodable_cons {c : Char} (hc : IsPlain c) {text : List Char} :
    Decodable (c :: text) ↔ Decodable text :=
  (@decodable_append_cons [] text c rfl hc).trans (and_iff_right decodable_nil)

/-- The second part begins with a plain character or is empty. -/
theorem decodable_append {first second : List Char} (hfirst : (bytes first).isSome)
    (hsecond : ∀ c, second.head? = some c → IsPlain c) :
    Decodable (first ++ second) ↔ Decodable first ∧ Decodable second := by
  cases second with
  | nil =>
    rw [List.append_nil]
    exact (and_iff_left decodable_nil).symm
  | cons c second =>
    have hc := hsecond c rfl
    rw [decodable_append_cons hfirst hc, decodable_cons hc]

theorem decodable_of_plain {text : List Char} (h : ∀ c ∈ text, IsPlain c) : Decodable text := by
  induction text with
  | nil => exact decodable_nil
  | cons c text ih =>
    rw [List.forall_mem_cons] at h
    exact (decodable_cons h.1).2 (ih h.2)

theorem isSome_bytes_append {first second : List Char} (hfirst : (bytes first).isSome)
    (hsecond : (bytes second).isSome) : (bytes (first ++ second)).isSome := by
  obtain ⟨encoded, hencoded⟩ := Option.isSome_iff_exists.1 hfirst
  obtain ⟨encoded', hencoded'⟩ := Option.isSome_iff_exists.1 hsecond
  rw [bytes_append hencoded, hencoded']
  rfl

theorem Decodable.isSome_bytes {text : List Char} (h : Decodable text) : (bytes text).isSome := by
  obtain ⟨decoded, hdecoded⟩ := Option.isSome_iff_exists.1 h
  rw [decode_eq_some_iff.1 hdecoded]
  rfl

/-! ## Encoded text -/

/-- Characters of the set and escapes. -/
def isEncoded (allowed : Char → Bool) : List Char → Bool
  | '%' :: first :: second :: rest =>
    (digitValue first).isSome && (digitValue second).isSome && isEncoded allowed rest
  | c :: rest => c ≠ '%' && allowed c && isEncoded allowed rest
  | [] => true

theorem isSome_bytes_of_isEncoded {allowed : Char → Bool} {text : List Char}
    (h : isEncoded allowed text = true) : (bytes text).isSome := by
  induction text using isEncoded.induct with
  | case1 first second text ih =>
    rw [isEncoded.eq_1, Bool.and_eq_true, Bool.and_eq_true, Option.isSome_iff_exists,
      Option.isSome_iff_exists] at h
    obtain ⟨⟨⟨high, hhigh⟩, low, hlow⟩, hrest⟩ := h
    obtain ⟨rest, hbytes⟩ := Option.isSome_iff_exists.1 (ih hrest)
    rw [bytes.eq_1, hhigh, hlow, hbytes]
    rfl
  | case2 c text hescape ih =>
    rw [isEncoded.eq_2 _ _ _ hescape, Bool.and_eq_true, Bool.and_eq_true, decide_eq_true_eq] at h
    obtain ⟨rest, hbytes⟩ := Option.isSome_iff_exists.1 (ih h.2)
    rw [bytes_cons h.1.1, hbytes]
    rfl
  | case3 => rfl

/-- A character outside of the set that is no part of an escape is not there. -/
theorem notMem_of_isEncoded {allowed : Char → Bool} {c : Char} (hallowed : allowed c = false)
    (hpercent : c ≠ '%') (hdigit : digitValue c = none) {text : List Char}
    (h : isEncoded allowed text = true) : c ∉ text := by
  induction text using isEncoded.induct with
  | case1 first second text ih =>
    rw [isEncoded.eq_1, Bool.and_eq_true, Bool.and_eq_true] at h
    have hne : ∀ digit, (digitValue digit).isSome = true → c ≠ digit := by
      intro digit hsome heq
      rw [← heq, hdigit] at hsome
      cases hsome
    simp only [List.mem_cons, not_or]
    exact ⟨hpercent, hne first h.1.1, hne second h.1.2, ih h.2⟩
  | case2 other text hescape ih =>
    rw [isEncoded.eq_2 _ _ _ hescape, Bool.and_eq_true, Bool.and_eq_true] at h
    rw [List.mem_cons, not_or]
    refine ⟨fun heq => ?_, ih h.2⟩
    rw [← heq, hallowed] at h
    cases h.1.2
  | case3 => exact List.not_mem_nil

end SentryCocoa.Library.PercentEncoding
