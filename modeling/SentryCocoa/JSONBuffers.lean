import SentryCocoa.JSONTokens

/-! More fuel than is needed, and buffers that are larger than a name or a string needs, do not
change what is read. -/
namespace SentryCocoa.JSONCodec

variable {δ ρ : Type}

section

variable (doubles : Doubles δ) (buffers : DecodeBuffers) (update : Bytes → ρ → Bytes × ρ)

/-- What does not run out of fuel does not change with more of it. -/
theorem parse_succ_of_fueled (fuel : Nat) :
    (∀ name bufferPtr reader,
      Fueled (parseElement doubles buffers update fuel name bufferPtr reader).2 →
        parseElement doubles buffers update (fuel + 1) name bufferPtr reader =
          parseElement doubles buffers update fuel name bufferPtr reader) ∧
    (∀ bufferPtr reader,
      Fueled (parseArray doubles buffers update fuel bufferPtr reader).2 →
        parseArray doubles buffers update (fuel + 1) bufferPtr reader =
          parseArray doubles buffers update fuel bufferPtr reader) ∧
    (∀ bufferPtr reader,
      Fueled (parseObject doubles buffers update fuel bufferPtr reader).2 →
        parseObject doubles buffers update (fuel + 1) bufferPtr reader =
          parseObject doubles buffers update fuel bufferPtr reader) := by
  induction fuel with
  | zero =>
    exact ⟨fun _ _ _ h => absurd rfl h, fun _ _ h => absurd rfl h, fun _ _ h => absurd rfl h⟩
  | succ fuel ih =>
    obtain ⟨helement, harray, hobject⟩ := ih
    refine ⟨fun name bufferPtr reader h => ?_, fun bufferPtr reader h => ?_,
      fun bufferPtr reader h => ?_⟩
    · rw [parseElement_succ] at h
      rw [parseElement_succ _ _ _ (fuel + 1), parseElement_succ _ _ _ fuel]
      cases hskip : skipWhitespace bufferPtr with
      | nil => rfl
      | cons c rest =>
        rw [hskip] at h
        dsimp only at h ⊢
        split
        · rename_i hbracket
          rw [if_pos hbracket] at h
          rw [harray _ _ h]
        · rename_i hbracket
          rw [if_neg hbracket] at h
          split
          · rename_i hbrace
            rw [if_pos hbrace] at h
            rw [hobject _ _ h]
          · rfl
    · rw [parseArray_succ] at h
      rw [parseArray_succ _ _ _ (fuel + 1), parseArray_succ _ _ _ fuel]
      cases hskip : skipWhitespace bufferPtr with
      | nil => rfl
      | cons c rest =>
        rw [hskip] at h
        dsimp only at h ⊢
        split
        · rfl
        · rename_i hbracket
          rw [if_neg hbracket] at h
          have hfirst := helement none (c :: rest) reader
          cases hparse : parseElement doubles buffers update fuel none (c :: rest) reader with
          | mk fired result =>
            rw [hparse] at h hfirst
            cases result with
            | error e => rw [hfirst h]
            | ok found =>
              rw [hfirst (fueled_ok found)]
              dsimp only at h ⊢
              cases hcomma : skipComma found.1 with
              | error e => rfl
              | ok behind =>
                rw [hcomma] at h
                dsimp only at h ⊢
                rw [harray _ _ h]
    · rw [parseObject_succ] at h
      rw [parseObject_succ _ _ _ (fuel + 1), parseObject_succ _ _ _ fuel]
      cases hskip : skipWhitespace bufferPtr with
      | nil => rfl
      | cons c rest =>
        rw [hskip] at h
        dsimp only at h ⊢
        split
        · rfl
        · rename_i hbrace
          rw [if_neg hbrace] at h
          cases hname : decodeName buffers.nameBufferLength (c :: rest) with
          | error e => rfl
          | ok named =>
            rw [hname] at h
            dsimp only at h ⊢
            have hfirst := helement (some named.1) named.2 reader
            cases hparse : parseElement doubles buffers update fuel (some named.1) named.2
                reader with
            | mk fired result =>
              rw [hparse] at h hfirst
              cases result with
              | error e => rw [hfirst h]
              | ok found =>
                rw [hfirst (fueled_ok found)]
                dsimp only at h ⊢
                cases hcomma : skipComma found.1 with
                | error e => rfl
                | ok behind =>
                  rw [hcomma] at h
                  dsimp only at h ⊢
                  rw [hobject _ _ h]

theorem parseElement_of_le {fuel fuel' : Nat} (hfuel : fuel ≤ fuel') {name : Option Bytes}
    {bufferPtr : Bytes} {reader : ρ}
    (h : Fueled (parseElement doubles buffers update fuel name bufferPtr reader).2) :
    parseElement doubles buffers update fuel' name bufferPtr reader =
      parseElement doubles buffers update fuel name bufferPtr reader := by
  induction hfuel with
  | refl => rfl
  | step _ ih =>
    rw [← ih] at h
    rw [(parse_succ_of_fueled doubles buffers update _).1 _ _ _ h, ih]

end

/-- In smaller buffers the same is read, or something is too long. -/
theorem parse_larger (doubles : Doubles δ) {nameLength length length' : Nat}
    (hlength : length ≤ length') (update : Bytes → ρ → Bytes × ρ) (fuel : Nat) :
    (∀ name bufferPtr reader,
      (parseElement doubles ⟨nameLength, length⟩ update fuel name bufferPtr reader).2 =
          .error .dataTooLong ∨
        parseElement doubles ⟨nameLength, length⟩ update fuel name bufferPtr reader =
          parseElement doubles ⟨nameLength, length'⟩ update fuel name bufferPtr reader) ∧
    (∀ bufferPtr reader,
      (parseArray doubles ⟨nameLength, length⟩ update fuel bufferPtr reader).2 =
          .error .dataTooLong ∨
        parseArray doubles ⟨nameLength, length⟩ update fuel bufferPtr reader =
          parseArray doubles ⟨nameLength, length'⟩ update fuel bufferPtr reader) ∧
    (∀ bufferPtr reader,
      (parseObject doubles ⟨nameLength, length⟩ update fuel bufferPtr reader).2 =
          .error .dataTooLong ∨
        parseObject doubles ⟨nameLength, length⟩ update fuel bufferPtr reader =
          parseObject doubles ⟨nameLength, length'⟩ update fuel bufferPtr reader) := by
  induction fuel with
  | zero => exact ⟨fun _ _ _ => Or.inr rfl, fun _ _ => Or.inr rfl, fun _ _ => Or.inr rfl⟩
  | succ fuel ih =>
    obtain ⟨helement, harray, hobject⟩ := ih
    refine ⟨fun name bufferPtr reader => ?_, fun bufferPtr reader => ?_,
      fun bufferPtr reader => ?_⟩
    · simp only [parseElement_succ]
      cases skipWhitespace bufferPtr with
      | nil => exact Or.inr rfl
      | cons c rest =>
        dsimp only
        split
        · rcases harray (update rest reader).1 (update rest reader).2 with h | h
          · exact Or.inl h
          · rw [h]
            exact Or.inr rfl
        · split
          · rcases hobject (update rest reader).1 (update rest reader).2 with h | h
            · exact Or.inl h
            · rw [h]
              exact Or.inr rfl
          · rcases decodeScalar_larger hlength doubles c rest with h | h
            · rw [h]
              exact Or.inl rfl
            · rw [h]
              exact Or.inr rfl
    · simp only [parseArray_succ]
      cases skipWhitespace bufferPtr with
      | nil => exact Or.inr rfl
      | cons c rest =>
        dsimp only
        split
        · exact Or.inr rfl
        · rcases helement none (c :: rest) reader with h | h
          · cases hparse : parseElement doubles ⟨nameLength, length⟩ update fuel none (c :: rest)
                reader with
            | mk fired result =>
              rw [hparse] at h
              dsimp only at h
              rw [h]
              exact Or.inl rfl
          · rw [h]
            rcases parseElement doubles ⟨nameLength, length'⟩ update fuel none (c :: rest)
                reader with ⟨fired, e | ⟨bufferPtr', reader'⟩⟩
            · exact Or.inr rfl
            · dsimp only
              cases skipComma bufferPtr' with
              | error e => exact Or.inr rfl
              | ok behind =>
                dsimp only
                rcases harray behind reader' with h | h
                · exact Or.inl h
                · rw [h]
                  exact Or.inr rfl
    · simp only [parseObject_succ]
      cases skipWhitespace bufferPtr with
      | nil => exact Or.inr rfl
      | cons c rest =>
        dsimp only
        split
        · exact Or.inr rfl
        · rcases decodeName nameLength (c :: rest) with e | ⟨name, after⟩
          · exact Or.inr rfl
          · dsimp only
            rcases helement (some name) after reader with h | h
            · cases hparse : parseElement doubles ⟨nameLength, length⟩ update fuel (some name)
                  after reader with
              | mk fired result =>
                rw [hparse] at h
                dsimp only at h
                rw [h]
                exact Or.inl rfl
            · rw [h]
              rcases parseElement doubles ⟨nameLength, length'⟩ update fuel (some name) after
                  reader with ⟨fired, e | ⟨bufferPtr', reader'⟩⟩
              · exact Or.inr rfl
              · dsimp only
                cases skipComma bufferPtr' with
                | error e => exact Or.inr rfl
                | ok behind =>
                  dsimp only
                  rcases hobject behind reader' with h | h
                  · exact Or.inl h
                  · rw [h]
                    exact Or.inr rfl

end SentryCocoa.JSONCodec
