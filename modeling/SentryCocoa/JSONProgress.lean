import SentryCocoa.JSONElement

/-! The decoder always moves forward, so that the fuel it is given never runs out. A reader may
refill the buffer; what counts is then what it has left together with the buffer. -/
namespace SentryCocoa.JSONCodec

variable {δ ρ : Type}

/-! The tokens. -/

/-- The result is one that the source has too. -/
def Fueled {α : Type} (result : Except JSONError α) : Prop := result ≠ .error .outOfFuel

theorem Fueled.map {α β : Type} {result : Except JSONError α} (h : Fueled result) (f : α → β) :
    Fueled (f <$> result) := by
  cases result with
  | ok a => exact fun heq => nomatch heq
  | error e =>
    intro heq
    injection heq with heq
    exact h (congrArg Except.error heq)

theorem Fueled.bind {α β : Type} {result : Except JSONError α} {f : α → Except JSONError β}
    (h : Fueled result) (hf : ∀ a, Fueled (f a)) : Fueled (result >>= f) := by
  cases result with
  | ok a => exact hf a
  | error e =>
    intro heq
    injection heq with heq
    exact h (congrArg Except.error heq)

theorem fueled_ok {α : Type} (a : α) : Fueled (pure a) := fun heq => nomatch heq

theorem fueled_throw {α : Type} {e : JSONError} (h : e ≠ .outOfFuel) :
    Fueled (throw e : Except JSONError α) := by
  intro heq
  injection heq with heq
  exact h heq

theorem skipWhitespace_length (bufferPtr : Bytes) :
    (skipWhitespace bufferPtr).length ≤ bufferPtr.length :=
  (List.dropWhile_sublist _).length_le

theorem scanString_length {bufferPtr content rest : Bytes}
    (h : scanString bufferPtr = some (content, rest)) :
    content.length + rest.length + 1 = bufferPtr.length := by
  fun_induction scanString bufferPtr generalizing content rest with
  | case1 => simp at h
  | case2 => simp_all
  | case3 => simp at h
  | case4 d behind hquote ih =>
    obtain ⟨⟨content', rest''⟩, hfound, h⟩ := Option.map_eq_some_iff.mp h
    have hlength := ih hfound
    simp only [Prod.mk.injEq] at h
    obtain ⟨rfl, rfl⟩ := h
    simp only [List.length_cons]
    omega
  | case5 c rest' hquote hescape ih =>
    obtain ⟨⟨content', rest''⟩, hfound, h⟩ := Option.map_eq_some_iff.mp h
    have hlength := ih hfound
    simp only [Prod.mk.injEq] at h
    obtain ⟨rfl, rfl⟩ := h
    simp only [List.length_cons]
    omega

theorem fueled_writeUTF8 (character : Nat) : Fueled (writeUTF8 character) := by
  unfold writeUTF8
  repeat' split
  all_goals first | exact fueled_ok _ | exact fueled_throw (by decide)

theorem fueled_unescape (content : Bytes) : Fueled (unescape content) := by
  fun_induction unescape content with
  | case1 => exact fueled_ok _
  | case2 c rest hplain ih => exact ih.map _
  | case3 => exact fueled_throw (by decide)
  | case4 c hescape d rest hunicode e he ih => exact ih.map _
  | case5 => exact fueled_throw (by decide)
  | case6 => exact fueled_throw (by decide)
  | case7 => exact fueled_throw (by decide)
  | case8 => exact fueled_throw (by decide)
  | case9 => exact fueled_throw (by decide)
  | case10 => 
    rename_i ih
    exact (fueled_writeUTF8 _).bind fun utf8 => ih.map _
  | case11 => exact fueled_throw (by decide)
  | case12 =>
    rename_i ih
    exact (fueled_writeUTF8 _).bind fun utf8 => ih.map _
  | case13 => exact fueled_throw (by decide)

theorem fueled_decodeString (dstBufferLength : Nat) (bufferPtr : Bytes) :
    Fueled (decodeString dstBufferLength bufferPtr) := by
  unfold decodeString
  split
  · exact fueled_throw (by decide)
  · split
    · exact fueled_throw (by decide)
    · split
      · exact fueled_throw (by decide)
      · exact (fueled_unescape _).bind fun dst => fueled_ok _

theorem decodeString_length {dstBufferLength : Nat} {bufferPtr string rest : Bytes}
    (h : decodeString dstBufferLength bufferPtr = .ok (string, rest)) :
    rest.length + 2 ≤ bufferPtr.length := by
  unfold decodeString at h
  split at h
  · cases h
  · cases hscan : scanString bufferPtr.tail with
    | none =>
      rw [hscan] at h
      cases h
    | some found =>
      obtain ⟨content, behind⟩ := found
      rw [hscan] at h
      dsimp only at h
      split at h
      · cases h
      · have hlength := scanString_length hscan
        cases hdst : unescape content with
        | error e =>
          rw [hdst] at h
          cases h
        | ok dst =>
          rw [hdst] at h
          cases h
          rw [List.length_tail] at hlength
          omega

theorem scanInteger_length (accum : Nat) (bufferPtr : Bytes) :
    (scanInteger accum bufferPtr).2.2.length ≤ bufferPtr.length := by
  fun_induction scanInteger accum bufferPtr with
  | case1 => exact Nat.le_refl _
  | case2 => exact Nat.le_refl _
  | case3 => exact Nat.le_refl _
  | case4 accum c rest hdigit hfits nextDigit hfits' ih =>
    rw [List.length_cons]
    omega
  | case5 => exact Nat.le_refl _

theorem scanInteger_digit {c : UInt8} (h : isdigit c = true) (rest : Bytes) :
    (scanInteger 0 (c :: rest)).2.2.length ≤ rest.length := by
  rw [scanInteger, if_pos h, if_neg (by decide)]
  dsimp only
  rw [if_neg (by unfold ULLONG_MAX; have := c.toNat_lt; omega)]
  exact scanInteger_length _ _

theorem fueled_decodeNumber (doubles : Doubles δ) (length : Nat) (negative : Bool)
    (start : Bytes) : Fueled (decodeNumber doubles length negative start) := by
  unfold decodeNumber
  split
  · exact fueled_throw (by decide)
  · split
    · exact fueled_ok _
    · split
      · exact fueled_ok _
      · split
        · exact fueled_throw (by decide)
        · dsimp only
          split
          · exact fueled_throw (by decide)
          · exact fueled_ok _

theorem decodeNumber_length {doubles : Doubles δ} {length : Nat} {negative : Bool}
    {start rest : Bytes} {event : Event δ}
    (h : decodeNumber doubles length negative start = .ok (event, rest)) :
    rest.length ≤ (scanInteger 0 start).2.2.length := by
  unfold decodeNumber at h
  split at h
  · cases h
  · rename_i accum isOverflow c bufferPtr hscan
    rw [hscan]
    dsimp only
    split at h
    · cases h
      exact Nat.le_refl _
    · split at h
      · cases h
        exact Nat.le_refl _
      · cases hdrop : (c :: bufferPtr).dropWhile isFPChar with
        | nil =>
          rw [hdrop] at h
          cases h
        | cons d behind =>
          rw [hdrop] at h
          dsimp only at h
          split at h
          · cases h
          · cases h
            rw [← hdrop]
            exact (List.dropWhile_sublist _).length_le

theorem fueled_decodeLiteral (literal : Bytes) (event : Event δ) (bufferPtr : Bytes) :
    Fueled (decodeLiteral literal event bufferPtr) := by
  unfold decodeLiteral
  split
  · exact fueled_throw (by decide)
  · split
    · exact fueled_throw (by decide)
    · exact fueled_ok _

theorem decodeLiteral_length {literal bufferPtr rest : Bytes} {event event' : Event δ}
    (h : decodeLiteral literal event bufferPtr = .ok (event', rest)) (hliteral : literal ≠ []) :
    rest.length < bufferPtr.length := by
  unfold decodeLiteral at h
  split at h
  · cases h
  · split at h
    · cases h
    · rename_i hlength _
      cases h
      have hpos := List.length_pos_iff.mpr hliteral
      rw [List.length_drop]
      omega

theorem fueled_decodeScalar (doubles : Doubles δ) (length : Nat) (c : UInt8) (rest : Bytes) :
    Fueled (decodeScalar doubles length c rest) := by
  unfold decodeScalar
  split
  · exact (fueled_decodeString _ _).bind fun found => fueled_ok _
  · split
    · exact fueled_decodeLiteral _ _ _
    · split
      · exact fueled_decodeLiteral _ _ _
      · split
        · exact fueled_decodeLiteral _ _ _
        · split
          · split
            · exact fueled_throw (by decide)
            · split
              · exact fueled_decodeNumber _ _ _ _
              · exact fueled_throw (by decide)
          · split
            · exact fueled_decodeNumber _ _ _ _
            · exact fueled_throw (by decide)

theorem decodeScalar_length {doubles : Doubles δ} {length : Nat} {c : UInt8}
    {rest bufferPtr : Bytes} {event : Event δ}
    (h : decodeScalar doubles length c rest = .ok (event, bufferPtr)) :
    bufferPtr.length < (c :: rest).length := by
  unfold decodeScalar at h
  split at h
  · cases hstring : decodeString length (c :: rest) with
    | error e =>
      rw [hstring] at h
      cases h
    | ok found =>
      obtain ⟨string, behind⟩ := found
      rw [hstring] at h
      cases h
      have hlength := decodeString_length hstring
      omega
  · split at h
    · exact decodeLiteral_length h (by decide)
    · split at h
      · exact decodeLiteral_length h (by decide)
      · split at h
        · exact decodeLiteral_length h (by decide)
        · split at h
          · split at h
            · cases h
            · rename_i d behind
              split at h
              · have hlength := decodeNumber_length h
                have hscan := scanInteger_length 0 (d :: behind)
                rw [List.length_cons]
                omega
              · cases h
          · split at h
            · rename_i hdigit
              have hlength := decodeNumber_length h
              have hscan := scanInteger_digit hdigit rest
              rw [List.length_cons]
              omega
            · cases h

theorem fueled_decodeName (nameBufferLength : Nat) (bufferPtr : Bytes) :
    Fueled (decodeName nameBufferLength bufferPtr) := by
  unfold decodeName
  refine (fueled_decodeString _ _).bind fun found => ?_
  obtain ⟨name, behind⟩ := found
  dsimp only
  split
  · exact fueled_throw (by decide)
  · split
    · exact fueled_throw (by decide)
    · exact fueled_ok _

theorem decodeName_length {nameBufferLength : Nat} {bufferPtr name rest : Bytes}
    (h : decodeName nameBufferLength bufferPtr = .ok (name, rest)) :
    rest.length < bufferPtr.length := by
  cases hstring : decodeString nameBufferLength bufferPtr with
  | error e =>
    rw [decodeName_error hstring] at h
    cases h
  | ok found =>
    obtain ⟨string, behind⟩ := found
    have hlength := decodeString_length hstring
    have hskip := skipWhitespace_length behind
    cases hbehind : skipWhitespace behind with
    | nil =>
      rw [decodeName_end hstring hbehind] at h
      cases h
    | cons c after =>
      rw [decodeName_cons hstring hbehind] at h
      rw [hbehind] at hskip
      split at h
      · cases h
      · cases h
        have hafter := skipWhitespace_length after
        rw [List.length_cons] at hskip
        omega

theorem fueled_skipComma (bufferPtr : Bytes) : Fueled (skipComma bufferPtr) := by
  unfold skipComma
  split
  · exact fueled_throw (by decide)
  · exact fueled_ok _

theorem skipComma_length {bufferPtr rest : Bytes} (h : skipComma bufferPtr = .ok rest) :
    rest.length ≤ bufferPtr.length := by
  unfold skipComma at h
  have hskip := skipWhitespace_length bufferPtr
  cases hbehind : skipWhitespace bufferPtr with
  | nil =>
    rw [hbehind] at h
    cases h
  | cons c after =>
    rw [hbehind] at h hskip
    rw [List.length_cons] at hskip
    dsimp only at h
    split at h
    · cases h
      omega
    · cases h
      rw [List.length_cons]
      exact hskip

/-! The elements. -/

/-- The fuel was enough, and what is left of the input is less than it was. -/
def Advances (left : ρ → Nat) (before : Nat) (result : Except JSONError (Bytes × ρ)) : Prop :=
  Fueled result ∧ ∀ bufferPtr reader, result = .ok (bufferPtr, reader) →
    bufferPtr.length + left reader < before

theorem Advances.mono {left : ρ → Nat} {before before' : Nat}
    {result : Except JSONError (Bytes × ρ)} (h : Advances left before result)
    (hle : before ≤ before') : Advances left before' result :=
  ⟨h.1, fun bufferPtr reader hresult => (h.2 bufferPtr reader hresult).trans_le hle⟩

theorem advances_error {left : ρ → Nat} {before : Nat} {e : JSONError} (h : e ≠ .outOfFuel) :
    Advances left before (Except.error e : Except JSONError (Bytes × ρ)) :=
  ⟨fueled_throw h, fun _ _ hresult => nomatch hresult⟩

theorem Fueled.advances {α : Type} {e : JSONError}
    (h : Fueled (Except.error e : Except JSONError α)) {left : ρ → Nat} {before : Nat} :
    Advances left before (Except.error e : Except JSONError (Bytes × ρ)) :=
  advances_error fun heq => h (congrArg Except.error heq)

theorem advances_ok {left : ρ → Nat} {before : Nat} {updated : Bytes × ρ}
    (h : updated.1.length + left updated.2 < before) :
    Advances left before (Except.ok updated) := by
  refine ⟨fueled_ok _, fun bufferPtr reader hresult => ?_⟩
  injection hresult with hresult
  rw [hresult] at h
  exact h

/-- A refill adds no more to the buffer than the reader has less of it. -/
theorem parse_advances (doubles : Doubles δ) (buffers : DecodeBuffers)
    (update : Bytes → ρ → Bytes × ρ) (left : ρ → Nat)
    (hupdate : ∀ bufferPtr reader, (update bufferPtr reader).1.length +
      left (update bufferPtr reader).2 ≤ bufferPtr.length + left reader) (fuel : Nat) :
    (∀ name bufferPtr reader, 2 * (bufferPtr.length + left reader) + 1 ≤ fuel →
      Advances left (bufferPtr.length + left reader)
        (parseElement doubles buffers update fuel name bufferPtr reader).2) ∧
    (∀ bufferPtr reader, 2 * (bufferPtr.length + left reader) + 2 ≤ fuel →
      Advances left (bufferPtr.length + left reader)
        (parseArray doubles buffers update fuel bufferPtr reader).2) ∧
    (∀ bufferPtr reader, 2 * (bufferPtr.length + left reader) + 2 ≤ fuel →
      Advances left (bufferPtr.length + left reader)
        (parseObject doubles buffers update fuel bufferPtr reader).2) := by
  induction fuel with
  | zero =>
    exact ⟨fun _ _ _ h => by omega, fun _ _ h => by omega, fun _ _ h => by omega⟩
  | succ fuel ih =>
    obtain ⟨helement, harray, hobject⟩ := ih
    refine ⟨fun name bufferPtr reader hfuel => ?_, fun bufferPtr reader hfuel => ?_,
      fun bufferPtr reader hfuel => ?_⟩
    · rw [parseElement_succ]
      have hskip := skipWhitespace_length bufferPtr
      cases hbehind : skipWhitespace bufferPtr with
      | nil => exact advances_error (by decide)
      | cons c rest =>
        rw [hbehind, List.length_cons] at hskip
        have hrest := hupdate rest reader
        dsimp only
        split
        · exact (harray _ _ (by omega)).mono (by omega)
        · split
          · exact (hobject _ _ (by omega)).mono (by omega)
          · have hfueled := fueled_decodeScalar doubles buffers.stringBufferLength c rest
            cases hscalar : decodeScalar doubles buffers.stringBufferLength c rest with
            | error e =>
              rw [hscalar] at hfueled
              exact hfueled.advances
            | ok found =>
              obtain ⟨event, bufferPtr'⟩ := found
              have hlength := decodeScalar_length hscalar
              have hmore := hupdate bufferPtr' reader
              rw [List.length_cons] at hlength
              exact advances_ok (by omega)
    · rw [parseArray_succ]
      have hskip := skipWhitespace_length bufferPtr
      cases hbehind : skipWhitespace bufferPtr with
      | nil => exact advances_error (by decide)
      | cons c rest =>
        rw [hbehind] at hskip
        dsimp only
        split
        · have hrest := hupdate rest reader
          rw [List.length_cons] at hskip
          exact advances_ok (by omega)
        · have hfirst := helement none (c :: rest) reader (by omega)
          cases hparse : parseElement doubles buffers update fuel none (c :: rest) reader with
          | mk fired result =>
            rw [hparse] at hfirst
            cases result with
            | error e => exact hfirst.1.advances
            | ok result =>
              obtain ⟨bufferPtr', reader'⟩ := result
              have hless := hfirst.2 bufferPtr' reader' rfl
              have hfueled := fueled_skipComma bufferPtr'
              dsimp only
              cases hcomma : skipComma bufferPtr' with
              | error e =>
                rw [hcomma] at hfueled
                exact hfueled.advances
              | ok bufferPtr'' =>
                have hlength := skipComma_length hcomma
                exact (harray bufferPtr'' reader' (by omega)).mono (by omega)
    · rw [parseObject_succ]
      have hskip := skipWhitespace_length bufferPtr
      cases hbehind : skipWhitespace bufferPtr with
      | nil => exact advances_error (by decide)
      | cons c rest =>
        rw [hbehind] at hskip
        dsimp only
        split
        · have hrest := hupdate rest reader
          rw [List.length_cons] at hskip
          exact advances_ok (by omega)
        · have hfueledName := fueled_decodeName buffers.nameBufferLength (c :: rest)
          cases hname : decodeName buffers.nameBufferLength (c :: rest) with
          | error e =>
            rw [hname] at hfueledName
            exact hfueledName.advances
          | ok found =>
            obtain ⟨name, behind⟩ := found
            have hshorter := decodeName_length hname
            dsimp only
            have hfirst := helement (some name) behind reader (by omega)
            cases hparse : parseElement doubles buffers update fuel (some name) behind reader with
            | mk fired result =>
              rw [hparse] at hfirst
              cases result with
              | error e => exact hfirst.1.advances
              | ok result =>
                obtain ⟨bufferPtr', reader'⟩ := result
                have hless := hfirst.2 bufferPtr' reader' rfl
                have hfueled := fueled_skipComma bufferPtr'
                dsimp only
                cases hcomma : skipComma bufferPtr' with
                | error e =>
                  rw [hcomma] at hfueled
                  exact hfueled.advances
                | ok bufferPtr'' =>
                  have hlength := skipComma_length hcomma
                  exact (hobject bufferPtr'' reader' (by omega)).mono (by omega)

theorem fueled_parseDocument (doubles : Doubles δ) (buffers : DecodeBuffers)
    (name : Option Bytes) (data : Bytes) :
    Fueled (parseDocument doubles buffers name data).2 :=
  ((parse_advances doubles buffers Prod.mk (fun _ : Unit => 0)
    (fun _ _ => Nat.le_refl _) (decodeFuel data.length)).1 name data () (Nat.le_refl _)).1

/-- What the reader can still add to the buffer; where the file ends there may be old bytes
behind it. -/
def FileReader.left (reader : FileReader) : Nat :=
  reader.unread.length + if reader.isEOF then 0 else reader.fileBuffer.length

theorem updateDecoderReadFile_length (bufferPtr : Bytes) (reader : FileReader) :
    (updateDecoderReadFile bufferPtr reader).1.length +
        (updateDecoderReadFile bufferPtr reader).2.left ≤ bufferPtr.length + reader.left := by
  unfold updateDecoderReadFile
  split
  · exact Nat.le_refl _
  · rename_i heof
    dsimp only
    split
    · rename_i hlength
      unfold FileReader.left
      simp only [List.length_append, List.length_take, List.length_drop, heof]
      split
      · simp only [if_false, Bool.false_eq_true]
        omega
      · rename_i hfull
        simp only [decide_eq_true_eq, Nat.not_lt] at hfull
        simp only [if_false, Bool.false_eq_true]
        omega
    · exact Nat.le_refl _

theorem fueled_parseFile (doubles : Doubles δ) (name : Option Bytes) (file : Bytes) :
    Fueled (parseFile doubles name file).2 := by
  have hopen := updateDecoderReadFile_length [] ⟨List.replicate 1000 0, file, false⟩
  have hleft : FileReader.left ⟨List.replicate 1000 0, file, false⟩ = file.length + 1000 := by
    unfold FileReader.left
    rw [List.length_replicate]
    rfl
  rw [hleft] at hopen
  apply ((parse_advances doubles fileBuffers updateDecoderReadFile FileReader.left
    updateDecoderReadFile_length _).1 name _ _ _).1
  unfold decodeFuel openFile
  rw [List.length_nil] at hopen
  omega

end SentryCocoa.JSONCodec
