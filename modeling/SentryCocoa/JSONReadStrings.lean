import SentryCocoa.JSONReads

/-! What the decoder reads of a string. It is copied as far as its escapes are well formed. Where
the digits of an escape are looked up, a byte with its highest bit set is outside of the table. -/
namespace SentryCocoa.JSONCodec
open SentryCocoa.Library.Unicode

/-! The content of a string. -/

/-- What can stand between two quotation marks. -/
inductive Enclosed : Bytes → Prop
  | nil : Enclosed []
  | plain {c : UInt8} {rest : Bytes} : c ≠ '"'.toUInt8 → c ≠ '\\'.toUInt8 → Enclosed rest →
      Enclosed (c :: rest)
  | escaped {d : UInt8} {rest : Bytes} : Enclosed rest → Enclosed ('\\'.toUInt8 :: d :: rest)

/-- The ways to write a character that the decoder takes. -/
inductive WrittenChar : Bytes → Prop
  | plain {c : UInt8} : c ≠ '"'.toUInt8 → c ≠ '\\'.toUInt8 → WrittenChar [c]
  | short {d e : UInt8} : d ≠ 'u'.toUInt8 → unescapeByte d = some e →
      WrittenChar ['\\'.toUInt8, d]
  | basic {digits : CodeUnit} : ¬IsLead digits.value → ¬IsTrail digits.value →
      WrittenChar digits.bytes
  | pair {lead trail : CodeUnit} : IsLead lead.value → IsTrail trail.value →
      WrittenChar (lead.bytes ++ trail.bytes)

inductive Written : Bytes → Prop
  | nil : Written []
  | cons {char rest : Bytes} : WrittenChar char → Written rest → Written (char ++ rest)

/-- An escape whose digits are looked up outside of the table. It may be the second of a pair. -/
inductive UnsafeEscape : Bytes → Prop
  | basic {digits more : Bytes} : digits.length = 4 → (∃ c ∈ digits, ¬InTable c) →
      UnsafeEscape ('\\'.toUInt8 :: 'u'.toUInt8 :: (digits ++ more))
  | trail {lead : CodeUnit} {digits more : Bytes} : IsLead lead.value → digits.length = 4 →
      (∃ c ∈ digits, ¬InTable c) →
      UnsafeEscape (lead.bytes ++ '\\'.toUInt8 :: 'u'.toUInt8 :: (digits ++ more))

/-- There is such an escape behind well formed characters. -/
inductive UnsafeContent : Bytes → Prop
  | mk {before escape : Bytes} : Written before → UnsafeEscape escape →
      UnsafeContent (before ++ escape)

/-! The digits. -/

theorem hexDigit_or_not (c : UInt8) :
    hexConversion c = 0x11111 ∨ ∃ value < 16, ∃ upperCase, c = hexByte value upperCase :=
  forall_byte (p := fun c => hexConversion c = 0x11111 ∨
    ∃ value < 16, ∃ upperCase, c = hexByte value upperCase) (by decide +kernel) c

theorem exists_hexDigit {c : UInt8} (h : hexConversion c ≤ 0xFFFF) :
    ∃ digit : HexDigit, c = digit.byte := by
  rcases hexDigit_or_not c with hnone | ⟨value, hvalue, upperCase, rfl⟩
  · omega
  · exact ⟨⟨⟨value, hvalue⟩, upperCase⟩, rfl⟩

/-- Four bytes that give a code unit are its digits. -/
theorem exists_codeUnit {c₁ c₂ c₃ c₄ : UInt8} (h : hexAccum c₁ c₂ c₃ c₄ ≤ 0xFFFF) :
    ∃ digits : CodeUnit, digits.bytes = ['\\'.toUInt8, 'u'.toUInt8, c₁, c₂, c₃, c₄] ∧
      hexAccum c₁ c₂ c₃ c₄ = digits.value := by
  have hshift (n i : Nat) : n ≤ n <<< i := by
    rw [Nat.shiftLeft_eq]
    exact Nat.le_mul_of_pos_right n (Nat.two_pow_pos i)
  have h₁ : hexConversion c₁ ≤ 0xFFFF := (hshift _ 12).trans
    (Nat.left_le_or.trans (Nat.left_le_or.trans (Nat.left_le_or.trans h)))
  have h₂ : hexConversion c₂ ≤ 0xFFFF := (hshift _ 8).trans
    (Nat.right_le_or.trans (Nat.left_le_or.trans (Nat.left_le_or.trans h)))
  have h₃ : hexConversion c₃ ≤ 0xFFFF := (hshift _ 4).trans
    (Nat.right_le_or.trans (Nat.left_le_or.trans h))
  have h₄ : hexConversion c₄ ≤ 0xFFFF := Nat.right_le_or.trans h
  obtain ⟨first, rfl⟩ := exists_hexDigit h₁
  obtain ⟨second, rfl⟩ := exists_hexDigit h₂
  obtain ⟨third, rfl⟩ := exists_hexDigit h₃
  obtain ⟨fourth, rfl⟩ := exists_hexDigit h₄
  exact ⟨⟨first, second, third, fourth⟩, rfl, hexAccum_bytes ⟨first, second, third, fourth⟩⟩

theorem hexByte_inTable : ∀ value < 16, ∀ upperCase, InTable (hexByte value upperCase) := by
  decide +kernel

theorem HexDigit.inTable (digit : HexDigit) : InTable digit.byte :=
  hexByte_inTable digit.value digit.value.isLt digit.upperCase

namespace Checked

theorem readHexAccum_codeUnit (digits : CodeUnit) (rest : Bytes) :
    readHexAccum ((digits.bytes ++ rest).drop 1) = pure digits.value := by
  rw [← hexAccum_bytes]
  apply readHexAccum_inTable
  simp only [List.forall_mem_cons, HexDigit.inTable, true_and]
  exact fun c hc => absurd hc List.not_mem_nil

/-! The copy. -/

variable {srcEnd rest : Bytes}

theorem copyEscaped_end (srcEnd : Bytes) : copyEscaped srcEnd srcEnd = pure [] := by
  rw [copyEscaped, dif_neg (Nat.lt_irrefl _)]

theorem copyEscaped_plain {c : UInt8} (hc : c ≠ '\\'.toUInt8)
    (hrest : srcEnd.length ≤ rest.length) :
    copyEscaped srcEnd (c :: rest) = (c :: ·) <$> copyEscaped srcEnd rest := by
  rw [copyEscaped, dif_pos (by rw [List.length_cons]; omega), readAt_cons_zero, pure_bind,
    if_pos hc]
  rfl

theorem copyEscaped_letter {d : UInt8} (hd : d ≠ 'u'.toUInt8)
    (hrest : srcEnd.length ≤ rest.length) :
    copyEscaped srcEnd ('\\'.toUInt8 :: d :: rest) = match unescapeByte d with
      | some e => (e :: ·) <$> copyEscaped srcEnd rest
      | none => throw (.failed .invalidCharacter) := by
  rw [copyEscaped, dif_pos (by rw [List.length_cons, List.length_cons]; omega), readAt_cons_zero,
    pure_bind, if_neg (fun hne => hne rfl), readAt_cons_succ, readAt_cons_zero, pure_bind,
    if_pos hd]
  rfl

/-- What follows the letter `u` of an escape, where there are four bytes more. -/
theorem copyEscaped_unicode {c₁ c₂ c₃ c₄ : UInt8} (hrest : srcEnd.length ≤ rest.length) :
    copyEscaped srcEnd ('\\'.toUInt8 :: 'u'.toUInt8 :: c₁ :: c₂ :: c₃ :: c₄ :: rest) = (do
      let accum ← readHexAccum ('u'.toUInt8 :: c₁ :: c₂ :: c₃ :: c₄ :: rest)
      if accum > 0xFFFF then throw (.failed .invalidCharacter)
      else if 0xDC00 ≤ accum ∧ accum ≤ 0xDFFF then throw (.failed .invalidCharacter)
      else if 0xD800 ≤ accum ∧ accum ≤ 0xDBFF then
        if rest.length < srcEnd.length + 6 then throw (.failed .incomplete)
        else do
          let b ← readAt rest 0
          let u ← readAt rest 1
          if b ≠ '\\'.toUInt8 ∨ u ≠ 'u'.toUInt8 then throw (.failed .invalidCharacter)
          else do
            let accum2 ← readHexAccum (rest.drop 1)
            if accum2 < 0xDC00 ∨ accum2 > 0xDFFF then throw (.failed .invalidCharacter)
            else do
              let utf8 ← failing (writeUTF8 (((accum - 0xD800) <<< 10) ||| (accum2 - 0xDC00)))
              (utf8 ++ ·) <$> copyEscaped srcEnd (rest.drop 6)
      else do
        let utf8 ← failing (writeUTF8 accum)
        (utf8 ++ ·) <$> copyEscaped srcEnd rest) := by
  rw [copyEscaped, dif_pos (by simp only [List.length_cons]; omega), readAt_cons_zero,
    pure_bind, if_neg (fun hne => hne rfl), readAt_cons_succ, readAt_cons_zero, pure_bind,
    if_neg (fun hne => hne rfl),
    if_neg (by simp only [List.drop_succ_cons, List.drop_zero, List.length_cons]; omega)]
  have hpair : ((c₁ :: c₂ :: c₃ :: c₄ :: rest).length + 1 < srcEnd.length + 11) ↔
      rest.length < srcEnd.length + 6 := by
    simp only [List.length_cons]
    omega
  simp only [List.drop_succ_cons, List.drop_zero, List.length_cons, readAt_cons_succ] at hpair ⊢
  simp only [hpair]

theorem copyEscaped_basic {digits : CodeUnit} (hlead : ¬IsLead digits.value)
    (htrail : ¬IsTrail digits.value) (hrest : srcEnd.length ≤ rest.length) :
    copyEscaped srcEnd (digits.bytes ++ rest) =
      (encodePoint digits.value ++ ·) <$> copyEscaped srcEnd rest := by
  have hmax := digits.value_le
  have hread := readHexAccum_codeUnit digits rest
  unfold IsLead at hlead
  unfold IsTrail at htrail
  unfold CodeUnit.bytes at hread ⊢
  simp only [List.cons_append, List.nil_append, List.drop_succ_cons, List.drop_zero] at hread ⊢
  rw [copyEscaped_unicode hrest, hread, pure_bind, if_neg (by omega), if_neg htrail, if_neg hlead,
    writeUTF8_eq (by omega)]
  rfl

theorem copyEscaped_lead {lead : CodeUnit} (hlead : IsLead lead.value)
    (hrest : srcEnd.length ≤ rest.length) :
    copyEscaped srcEnd (lead.bytes ++ rest) =
      (if rest.length < srcEnd.length + 6 then throw (.failed .incomplete)
      else do
        let b ← readAt rest 0
        let u ← readAt rest 1
        if b ≠ '\\'.toUInt8 ∨ u ≠ 'u'.toUInt8 then throw (.failed .invalidCharacter)
        else do
          let accum2 ← readHexAccum (rest.drop 1)
          if accum2 < 0xDC00 ∨ accum2 > 0xDFFF then throw (.failed .invalidCharacter)
          else do
            let utf8 ← failing (writeUTF8 (((lead.value - 0xD800) <<< 10) ||| (accum2 - 0xDC00)))
            Functor.map (utf8 ++ ·) (copyEscaped srcEnd (rest.drop 6))) := by
  have hmax := lead.value_le
  have hread := readHexAccum_codeUnit lead rest
  unfold IsLead at hlead
  unfold CodeUnit.bytes at hread ⊢
  simp only [List.cons_append, List.nil_append, List.drop_succ_cons, List.drop_zero] at hread ⊢
  rw [copyEscaped_unicode hrest, hread, pure_bind, if_neg (by omega), if_neg (by omega),
    if_pos hlead]

theorem copyEscaped_pair {lead trail : CodeUnit} (hlead : IsLead lead.value)
    (htrail : IsTrail trail.value) (hrest : srcEnd.length ≤ rest.length) :
    copyEscaped srcEnd (lead.bytes ++ trail.bytes ++ rest) =
      (encodePoint ((lead.value - 0xD800) * 0x400 + (trail.value - 0xDC00)) ++ ·) <$>
        copyEscaped srcEnd rest := by
  have hread := readHexAccum_codeUnit trail rest
  rw [List.append_assoc, copyEscaped_lead hlead (by rw [List.length_append]; omega), hread]
  unfold IsLead at hlead
  unfold IsTrail at htrail
  have hbits : (lead.value - 0xD800) <<< 10 ||| (trail.value - 0xDC00) =
      (lead.value - 0xD800) * 0x400 + (trail.value - 0xDC00) := by
    rw [Nat.shiftLeft_eq, or_eq_add 10 (by omega) (by omega)]
  unfold CodeUnit.bytes
  simp only [List.cons_append, List.nil_append, List.length_cons, readAt_cons_zero,
    readAt_cons_succ, pure_bind, List.drop_succ_cons, List.drop_zero]
  rw [if_neg (by omega), if_neg (by simp), if_neg (by omega), hbits, writeUTF8_eq (by omega)]
  rfl

end Checked

open Checked

/-- A character is copied by itself, as the decoder without the reads does it. -/
theorem WrittenChar.copies {char : Bytes} (h : WrittenChar char) :
    ∃ dst, (∀ rest, unescape (char ++ rest) = (dst ++ ·) <$> unescape rest) ∧
      ∀ srcEnd rest : Bytes, srcEnd.length ≤ rest.length →
        copyEscaped srcEnd (char ++ rest) = (dst ++ ·) <$> copyEscaped srcEnd rest := by
  cases h with
  | @plain c hquote hescape =>
    exact ⟨[c], unescape_plain fun hmem => hescape (List.mem_singleton.1 hmem).symm,
      fun srcEnd rest => copyEscaped_plain hescape⟩
  | @short d e hunicode hletter =>
    refine ⟨[e], fun rest => ?_, fun srcEnd rest hrest => ?_⟩
    · rw [unescape.eq_def]
      simp only [List.cons_append, List.nil_append]
      rw [if_neg (fun hne => hne rfl), if_pos hunicode, hletter]
    · exact (copyEscaped_letter hunicode hrest).trans (by rw [hletter]; rfl)
  | basic hlead htrail =>
    exact ⟨_, unescape_basic hlead htrail, fun srcEnd rest => copyEscaped_basic hlead htrail⟩
  | pair hlead htrail =>
    exact ⟨_, unescape_pair hlead htrail, fun srcEnd rest => copyEscaped_pair hlead htrail⟩

theorem Written.copies {content : Bytes} (h : Written content) :
    ∃ dst, (∀ rest, unescape (content ++ rest) = (dst ++ ·) <$> unescape rest) ∧
      ∀ srcEnd rest : Bytes, srcEnd.length ≤ rest.length →
        copyEscaped srcEnd (content ++ rest) = (dst ++ ·) <$> copyEscaped srcEnd rest := by
  induction h with
  | nil => exact ⟨[], fun rest => (id_map _).symm, fun srcEnd rest _ => (id_map _).symm⟩
  | cons hchar _ ih =>
    obtain ⟨first, hunescape, hcopy⟩ := hchar.copies
    obtain ⟨dst, hunescapeRest, hcopyRest⟩ := ih
    refine ⟨first ++ dst, fun rest => ?_, fun srcEnd rest hrest => ?_⟩
    · rw [List.append_assoc, hunescape, hunescapeRest, Functor.map_map]
      simp only [List.append_assoc]
    · rw [List.append_assoc, hcopy _ _ (by rw [List.length_append]; omega), hcopyRest _ _ hrest,
        Functor.map_map]
      simp only [List.append_assoc]

/-! What is between the quotation marks. -/

theorem Enclosed.rest {c : UInt8} {rest : Bytes} (hescape : c ≠ '\\'.toUInt8)
    (h : Enclosed (c :: rest)) : Enclosed rest := by
  cases h with
  | plain _ _ hrest => exact hrest
  | escaped _ => exact absurd rfl hescape

theorem Enclosed.behind {d : UInt8} {rest : Bytes} (h : Enclosed ('\\'.toUInt8 :: d :: rest)) :
    Enclosed rest := by
  cases h with
  | plain _ hescape _ => exact absurd rfl hescape
  | escaped hrest => exact hrest

theorem HexDigit.plain (digit : HexDigit) : digit.byte ≠ '"'.toUInt8 ∧ digit.byte ≠ '\\'.toUInt8 :=
  hexByte_plain digit.value digit.value.isLt digit.upperCase

theorem Enclosed.codeUnit_iff (digits : CodeUnit) {rest : Bytes} :
    Enclosed (digits.bytes ++ rest) ↔ Enclosed rest := by
  constructor
  · intro h
    exact (((h.behind.rest digits.first.plain.2).rest digits.second.plain.2).rest
      digits.third.plain.2).rest digits.fourth.plain.2
  · intro h
    have hplain (digit : HexDigit) {rest : Bytes} (hrest : Enclosed rest) :
        Enclosed (digit.byte :: rest) := .plain digit.plain.1 digit.plain.2 hrest
    exact .escaped (hplain _ (hplain _ (hplain _ (hplain _ h))))

theorem WrittenChar.enclosed {char rest : Bytes} (h : WrittenChar char) (hrest : Enclosed rest) :
    Enclosed (char ++ rest) := by
  cases h with
  | plain hquote hescape => exact .plain hquote hescape hrest
  | short _ _ => exact .escaped hrest
  | basic _ _ => exact (Enclosed.codeUnit_iff _).2 hrest
  | pair _ _ =>
    rw [List.append_assoc]
    exact (Enclosed.codeUnit_iff _).2 ((Enclosed.codeUnit_iff _).2 hrest)

theorem Written.enclosed {content : Bytes} (h : Written content) : Enclosed content := by
  induction h with
  | nil => exact .nil
  | cons hchar _ ih => exact hchar.enclosed ih

theorem scanString_eq_some_iff {bufferPtr content rest : Bytes} :
    scanString bufferPtr = some (content, rest) ↔
      bufferPtr = content ++ '"'.toUInt8 :: rest ∧ Enclosed content := by
  constructor
  · intro h
    fun_induction scanString bufferPtr generalizing content with
    | case1 => cases h
    | case2 rest' =>
      cases h
      exact ⟨rfl, .nil⟩
    | case3 => cases h
    | case4 d rest' hquote ih =>
      obtain ⟨found, hfound, heq⟩ := Option.map_eq_some_iff.1 h
      cases heq
      obtain ⟨hbuffer, henclosed⟩ := ih hfound
      exact ⟨congrArg (fun rest => '\\'.toUInt8 :: d :: rest) hbuffer, .escaped henclosed⟩
    | case5 c rest' hquote hescape ih =>
      obtain ⟨found, hfound, heq⟩ := Option.map_eq_some_iff.1 h
      cases heq
      obtain ⟨hbuffer, henclosed⟩ := ih hfound
      exact ⟨congrArg (c :: ·) hbuffer, .plain hquote hescape henclosed⟩
  · rintro ⟨rfl, henclosed⟩
    induction henclosed with
    | nil =>
      rw [List.nil_append, scanString.eq_def]
      exact if_pos rfl
    | plain hquote hescape _ ih =>
      rw [List.cons_append, scanString.eq_def]
      dsimp only
      rw [if_neg hquote, if_neg hescape, ih]
      rfl
    | escaped _ ih =>
      rw [List.cons_append, List.cons_append, scanString_escaped, ih]
      rfl

/-! The content as the loop copies it. -/

/-- The copy of the decoder without the reads. If there is one, the content is well formed. -/
def CopiedWell (srcEnd content : Bytes) : Prop :=
  copyEscaped srcEnd (content ++ srcEnd) = failing (unescape content) ∧
    ∀ dst, unescape content = .ok dst → Written content

theorem CopiedWell.of_error {srcEnd content : Bytes} {e : JSONError}
    (hunescape : unescape content = .error e)
    (hcopy : copyEscaped srcEnd (content ++ srcEnd) = .error (.failed e)) :
    CopiedWell srcEnd content := by
  refine ⟨?_, fun dst h => ?_⟩
  · rw [hunescape, hcopy]
    rfl
  · rw [hunescape] at h
    cases h

theorem failing_map {α β : Type} (f : α → β) (result : Except JSONError α) :
    failing (f <$> result) = f <$> failing result := by
  cases result with
  | ok a => rfl
  | error e => rfl

theorem CopiedWell.cons {srcEnd char rest : Bytes} (hchar : WrittenChar char)
    (h : CopiedWell srcEnd rest) : CopiedWell srcEnd (char ++ rest) := by
  obtain ⟨first, hunescape, hcopy⟩ := hchar.copies
  refine ⟨?_, fun dst hdst => ?_⟩
  · rw [List.append_assoc, hcopy _ _ (by rw [List.length_append]; omega), h.1, hunescape,
      failing_map]
  · rw [hunescape] at hdst
    cases hrest : unescape rest with
    | error e =>
      rw [hrest] at hdst
      cases hdst
    | ok dst' => exact .cons hchar (h.2 dst' hrest)

theorem UnsafeContent.cons {char rest : Bytes} (hchar : WrittenChar char)
    (h : UnsafeContent rest) : UnsafeContent (char ++ rest) := by
  cases h with
  | mk hbefore hescape =>
    rw [← List.append_assoc]
    exact .mk (.cons hchar hbefore) hescape

theorem UnsafeEscape.content {escape : Bytes} (h : UnsafeEscape escape) : UnsafeContent escape :=
  UnsafeContent.mk .nil h

theorem exists_four {rest : Bytes} (h : 4 ≤ rest.length) :
    ∃ c₁ c₂ c₃ c₄ more, rest = c₁ :: c₂ :: c₃ :: c₄ :: more := by
  match rest, h with
  | c₁ :: c₂ :: c₃ :: c₄ :: more, _ => exact ⟨c₁, c₂, c₃, c₄, more, rfl⟩

theorem exists_six {rest : Bytes} (h : 6 ≤ rest.length) :
    ∃ b u d₁ d₂ d₃ d₄ more, rest = b :: u :: d₁ :: d₂ :: d₃ :: d₄ :: more := by
  match rest, h with
  | b :: u :: rest, h =>
    obtain ⟨d₁, d₂, d₃, d₄, more, rfl⟩ :=
      exists_four (Nat.le_of_succ_le_succ (Nat.le_of_succ_le_succ h))
    exact ⟨b, u, d₁, d₂, d₃, d₄, more, rfl⟩

section

variable {srcEnd more : Bytes} {c₁ c₂ c₃ c₄ : UInt8}

/-- The other cases of an escape end the copy. -/
theorem copiedWell_letter {d : UInt8} {rest : Bytes} (hd : d ≠ 'u'.toUInt8)
    (hrest : CopiedWell srcEnd rest ∨ UnsafeContent rest) :
    CopiedWell srcEnd ('\\'.toUInt8 :: d :: rest) ∨ UnsafeContent ('\\'.toUInt8 :: d :: rest) := by
  cases hletter : unescapeByte d with
  | some e => exact hrest.imp (CopiedWell.cons (.short hd hletter)) (.cons (.short hd hletter))
  | none =>
    refine .inl (.of_error (e := .invalidCharacter) ?_ ?_)
    · rw [unescape.eq_def]
      dsimp only
      rw [if_neg (fun hne => hne rfl), if_pos hd, hletter]
      rfl
    · rw [List.cons_append, List.cons_append,
        copyEscaped_letter hd (by rw [List.length_append]; omega), hletter]
      rfl

theorem copiedWell_short {rest : Bytes} (hshort : rest.length < 4) :
    CopiedWell srcEnd ('\\'.toUInt8 :: 'u'.toUInt8 :: rest) := by
  refine .of_error (e := .incomplete) ?_ ?_
  · match rest, hshort with
    | [], _ => rfl
    | [_], _ => rfl
    | [_, _], _ => rfl
    | [_, _, _], _ => rfl
  · rw [List.cons_append, List.cons_append, copyEscaped,
      dif_pos (by simp only [List.length_cons, List.length_append]; omega), readAt_cons_zero,
      pure_bind, if_neg (fun hne => hne rfl), readAt_cons_succ, readAt_cons_zero, pure_bind,
      if_neg (fun hne => hne rfl),
      if_pos (by simp only [List.drop_succ_cons, List.drop_zero, List.length_cons,
        List.length_append]; omega)]
    rfl

/-- Four bytes of the table in front of the others, that are not the lead of a pair. -/
theorem copiedWell_refused (hread : ∀ c ∈ [c₁, c₂, c₃, c₄], InTable c)
    (hvalue : hexAccum c₁ c₂ c₃ c₄ > 0xFFFF ∨ IsTrail (hexAccum c₁ c₂ c₃ c₄)) :
    CopiedWell srcEnd ('\\'.toUInt8 :: 'u'.toUInt8 :: c₁ :: c₂ :: c₃ :: c₄ :: more) := by
  unfold IsTrail at hvalue
  refine .of_error (e := .invalidCharacter) ?_ ?_
  · rw [unescape.eq_def]
    dsimp only
    rw [if_neg (fun hne => hne rfl), if_neg (fun hne => hne rfl)]
    by_cases hlarge : hexAccum c₁ c₂ c₃ c₄ > 0xFFFF
    · exact if_pos hlarge
    · exact (if_neg hlarge).trans (if_pos (hvalue.resolve_left hlarge))
  · simp only [List.cons_append]
    rw [copyEscaped_unicode (by rw [List.length_append]; omega), readHexAccum_inTable hread,
      pure_bind]
    by_cases hlarge : hexAccum c₁ c₂ c₃ c₄ > 0xFFFF
    · exact if_pos hlarge
    · exact (if_neg hlarge).trans (if_pos (hvalue.resolve_left hlarge))

theorem unescape_lead {lead : CodeUnit} (hlead : IsLead lead.value) (rest : Bytes) :
    unescape (lead.bytes ++ rest) = match rest with
      | b :: u :: d₁ :: d₂ :: d₃ :: d₄ :: rest =>
        if b ≠ '\\'.toUInt8 ∨ u ≠ 'u'.toUInt8 then throw .invalidCharacter
        else if hexAccum d₁ d₂ d₃ d₄ < 0xDC00 ∨ hexAccum d₁ d₂ d₃ d₄ > 0xDFFF then
          throw .invalidCharacter
        else do
          let utf8 ← writeUTF8 (((lead.value - 0xD800) <<< 10) ||| (hexAccum d₁ d₂ d₃ d₄ - 0xDC00))
          Functor.map (utf8 ++ ·) (unescape rest)
      | _ => throw .incomplete := by
  have hmax := lead.value_le
  unfold IsLead at hlead
  unfold CodeUnit.bytes
  simp only [List.cons_append, List.nil_append]
  rw [unescape.eq_def]
  dsimp only
  rw [hexAccum_bytes, if_neg (fun hne => hne rfl), if_neg (fun hne => hne rfl),
    if_neg (by omega), if_neg (by omega), if_pos hlead]
  rfl

theorem copiedWell_lead {lead : CodeUnit} (hlead : IsLead lead.value) {rest : Bytes}
    (henclosed : Enclosed rest)
    (ih : ∀ rest' : Bytes, rest'.length < rest.length → Enclosed rest' →
      CopiedWell srcEnd rest' ∨ UnsafeContent rest') :
    CopiedWell srcEnd (lead.bytes ++ rest) ∨ UnsafeContent (lead.bytes ++ rest) := by
  have hunescape := unescape_lead hlead rest
  have hcopy := @copyEscaped_lead srcEnd (rest ++ srcEnd) lead hlead
    (by rw [List.length_append]; omega)
  rw [← List.append_assoc] at hcopy
  by_cases hshort : rest.length < 6
  · refine .inl (.of_error (e := .incomplete) ?_ ?_)
    · rw [hunescape]
      match rest, hshort with
      | [], _ => rfl
      | [_], _ => rfl
      | [_, _], _ => rfl
      | [_, _, _], _ => rfl
      | [_, _, _, _], _ => rfl
      | [_, _, _, _, _], _ => rfl
    · rw [hcopy, if_pos (by rw [List.length_append]; omega)]
      rfl
  · obtain ⟨b, u, d₁, d₂, d₃, d₄, more, rfl⟩ := exists_six (Nat.not_lt.1 hshort)
    dsimp only at hunescape
    simp only [List.cons_append, readAt_cons_zero, readAt_cons_succ, pure_bind,
      List.drop_succ_cons, List.drop_zero] at hcopy
    rw [if_neg (by simp only [List.length_cons, List.length_append]; omega)] at hcopy
    by_cases hmark : b ≠ '\\'.toUInt8 ∨ u ≠ 'u'.toUInt8
    · rw [if_pos hmark] at hunescape hcopy
      exact .inl (.of_error hunescape hcopy)
    · rw [if_neg hmark] at hunescape hcopy
      rw [not_or, not_not, not_not] at hmark
      obtain ⟨rfl, rfl⟩ := hmark
      by_cases hread : ∀ c ∈ [d₁, d₂, d₃, d₄], InTable c
      · rw [readHexAccum_inTable hread, pure_bind] at hcopy
        by_cases hrange : hexAccum d₁ d₂ d₃ d₄ < 0xDC00 ∨ hexAccum d₁ d₂ d₃ d₄ > 0xDFFF
        · rw [if_pos hrange] at hunescape hcopy
          exact .inl (.of_error hunescape hcopy)
        · rw [not_or, Nat.not_lt, Nat.not_lt] at hrange
          obtain ⟨trail, hbytes, hvalue⟩ := exists_codeUnit (hrange.2.trans (by decide))
          have hpair : WrittenChar (lead.bytes ++ trail.bytes) := by
            refine .pair hlead ?_
            rw [← hvalue]
            exact hrange
          have hsplit : lead.bytes ++ '\\'.toUInt8 :: 'u'.toUInt8 :: d₁ :: d₂ :: d₃ :: d₄ :: more =
              lead.bytes ++ trail.bytes ++ more := by
            rw [hbytes, List.append_assoc]
            rfl
          have hrest := ih more (by simp only [List.length_cons]; omega)
            ((Enclosed.codeUnit_iff trail).1 (by rw [hbytes]; exact henclosed))
          rw [hsplit]
          exact hrest.imp (.cons hpair) (.cons hpair)
      · push Not at hread
        exact .inr (UnsafeEscape.trail hlead rfl hread).content

theorem copiedWell_unicode {rest : Bytes} (henclosed : Enclosed rest)
    (ih : ∀ rest' : Bytes, rest'.length < rest.length → Enclosed rest' →
      CopiedWell srcEnd rest' ∨ UnsafeContent rest') :
    CopiedWell srcEnd ('\\'.toUInt8 :: 'u'.toUInt8 :: rest) ∨
      UnsafeContent ('\\'.toUInt8 :: 'u'.toUInt8 :: rest) := by
  by_cases hshort : rest.length < 4
  · exact .inl (copiedWell_short hshort)
  obtain ⟨c₁, c₂, c₃, c₄, more, rfl⟩ := exists_four (Nat.not_lt.1 hshort)
  by_cases hread : ∀ c ∈ [c₁, c₂, c₃, c₄], InTable c
  · by_cases hlarge : hexAccum c₁ c₂ c₃ c₄ > 0xFFFF
    · exact .inl (copiedWell_refused hread (.inl hlarge))
    obtain ⟨digits, hbytes, hvalue⟩ := exists_codeUnit (Nat.not_lt.1 hlarge)
    by_cases htrail : IsTrail digits.value
    · exact .inl (copiedWell_refused hread (.inr (hvalue ▸ htrail)))
    have hsplit : '\\'.toUInt8 :: 'u'.toUInt8 :: c₁ :: c₂ :: c₃ :: c₄ :: more =
        digits.bytes ++ more := by
      rw [hbytes]
      rfl
    have hmore : Enclosed more := (Enclosed.codeUnit_iff digits).1 (hsplit ▸ .escaped henclosed)
    have hlength : more.length < (c₁ :: c₂ :: c₃ :: c₄ :: more).length := by
      simp only [List.length_cons]
      omega
    rw [hsplit]
    by_cases hlead : IsLead digits.value
    · exact copiedWell_lead hlead hmore fun rest' hrest' => ih rest' (hrest'.trans hlength)
    · have hbasic : WrittenChar digits.bytes := .basic hlead htrail
      exact (ih more hlength hmore).imp (.cons hbasic) (.cons hbasic)
  · push Not at hread
    exact .inr (UnsafeEscape.basic rfl hread).content

end

/-- Up to an unsafe escape the copy reads only in the buffer and in the table. -/
theorem copiedWell_or_unsafe (srcEnd : Bytes) {content : Bytes} (h : Enclosed content) :
    CopiedWell srcEnd content ∨ UnsafeContent content := by
  induction hlength : content.length using Nat.strong_induction_on generalizing content with
  | h length ih =>
    cases h with
    | nil => exact .inl ⟨copyEscaped_end srcEnd, fun _ _ => .nil⟩
    | @plain c rest hquote hescape hrest =>
      have hchar : WrittenChar [c] := .plain hquote hescape
      have htail := ih rest.length (by rw [← hlength]; exact Nat.lt_succ_self _) hrest rfl
      exact htail.imp (.cons hchar) (.cons hchar)
    | @escaped d rest hrest =>
      have hless : rest.length < length := by
        rw [← hlength, List.length_cons, List.length_cons]
        omega
      by_cases hd : d = 'u'.toUInt8
      · rw [hd]
        exact copiedWell_unicode hrest fun rest' hrest' henclosed =>
          ih rest'.length (hrest'.trans hless) henclosed rfl
      · exact copiedWell_letter hd (ih rest.length hless hrest rfl)

/-! What is outside of the table. -/

theorem UnsafeEscape.outside {srcEnd escape : Bytes} (h : UnsafeEscape escape) :
    copyEscaped srcEnd (escape ++ srcEnd) = throw .outsideTable := by
  cases h with
  | @basic digits more hlength houtside =>
    obtain ⟨c₁, c₂, c₃, c₄, last, rfl⟩ := exists_four (Nat.le_of_eq hlength.symm)
    cases List.eq_nil_of_length_eq_zero (by simpa using hlength)
    simp only [List.cons_append, List.nil_append]
    rw [copyEscaped_unicode (by rw [List.length_append]; omega), readHexAccum_outside houtside]
    rfl
  | @trail lead digits more hlead hlength houtside =>
    obtain ⟨c₁, c₂, c₃, c₄, last, rfl⟩ := exists_four (Nat.le_of_eq hlength.symm)
    cases List.eq_nil_of_length_eq_zero (by simpa using hlength)
    rw [List.append_assoc, copyEscaped_lead hlead (by rw [List.length_append]; omega)]
    simp only [List.cons_append, List.nil_append, List.length_cons, List.length_append,
      readAt_cons_zero, readAt_cons_succ, pure_bind, List.drop_succ_cons, List.drop_zero]
    rw [if_neg (by omega), if_neg (by simp), readHexAccum_outside houtside]
    rfl

theorem UnsafeContent.outside {srcEnd content : Bytes} (h : UnsafeContent content) :
    copyEscaped srcEnd (content ++ srcEnd) = throw .outsideTable := by
  cases h with
  | mk hbefore hescape =>
    obtain ⟨dst, -, hcopy⟩ := hbefore.copies
    rw [List.append_assoc, hcopy _ _ (by rw [List.length_append]; omega), hescape.outside]
    rfl

theorem Written.unescapes {content : Bytes} (h : Written content) :
    ∃ dst, unescape content = .ok dst ∧
      ∀ srcEnd, copyEscaped srcEnd (content ++ srcEnd) = .ok dst := by
  obtain ⟨dst, hunescape, hcopy⟩ := h.copies
  refine ⟨dst, ?_, fun srcEnd => ?_⟩
  · have hwhole := hunescape []
    rw [List.append_nil] at hwhole
    rw [hwhole]
    exact congrArg Except.ok (List.append_nil dst)
  · rw [hcopy srcEnd srcEnd (Nat.le_refl _), copyEscaped_end]
    exact congrArg Except.ok (List.append_nil dst)

end SentryCocoa.JSONCodec
